import ArRobotCode.Main.PublicLevels

namespace ArRobotCode

open Swift Grouping

namespace PublicLevelsViewModel

/-- What the closure of the `map` works on: an element of the combined observable, and the objects as they are then. -/
structure Emission (ι : Type) where
  fields : ι → DataLevel
  levels : List ι
  userProperties : UserProperties

/-- The two subjects replay their last values. `first` is the element that `take(1)` has let through to the collection
    view, whose subscription is made before anything is emitted. -/
structure Screen (ι : Type) where
  fields : ι → DataLevel
  listOfLevelsSubject : Option (List ι) := none
  userPropertiesSubject : Option UserProperties := none
  first : Option (Emission ι) := none

/-- Apart from the emissions, the objects themselves are edited in place. -/
inductive Input (ι : Type) where
  | listOfLevels (levels : List ι)
  | userProperties (properties : UserProperties)
  | edited (fields : ι → DataLevel)

variable {ι : Type}

namespace Screen

/-- `combineLatest`, for a subscription made now. -/
def combined (screen : Screen ι) : Option (Emission ι) := do
  let levels ← screen.listOfLevelsSubject
  let userProperties ← screen.userPropertiesSubject
  return { fields := screen.fields, levels, userProperties }

def emit (screen : Screen ι) : Screen ι := { screen with first := screen.first <|> screen.combined }

def receive (screen : Screen ι) : Input ι → Screen ι
  | .listOfLevels levels => emit { screen with listOfLevelsSubject := some levels }
  | .userProperties properties => emit { screen with userPropertiesSubject := some properties }
  | .edited fields => { screen with fields }

def receiveAll (screen : Screen ι) (inputs : List (Input ι)) : Screen ι := inputs.foldl receive screen

/-- Once something is displayed, both subjects have a value to replay. -/
def Replays (screen : Screen ι) : Prop :=
  ∀ first, screen.first = some first →
    (∃ levels, screen.listOfLevelsSubject = some levels) ∧ ∃ properties, screen.userPropertiesSubject = some properties

variable {screen : Screen ι}

theorem replays_of_combined {latest : Emission ι} (now : screen.combined = some latest) :
    (∃ levels, screen.listOfLevelsSubject = some levels) ∧
      ∃ properties, screen.userPropertiesSubject = some properties := by
  simp only [combined, Option.bind_eq_bind, Option.bind_eq_some_iff] at now
  obtain ⟨levels, listed, properties, known, _⟩ := now
  exact ⟨⟨levels, listed⟩, properties, known⟩

theorem Replays.emit (replays : screen.Replays) : screen.emit.Replays := by
  intro first shown
  cases before : screen.first with
  | some earlier => exact replays earlier before
  | none =>
    have now : screen.combined = some first := by simpa [Screen.emit, before] using shown
    exact replays_of_combined now

theorem Replays.receive (replays : screen.Replays) (input : Input ι) : (screen.receive input).Replays := by
  cases input with
  | listOfLevels levels =>
    apply Replays.emit
    intro first shown
    exact ⟨⟨levels, rfl⟩, (replays first shown).2⟩
  | userProperties properties =>
    apply Replays.emit
    intro first shown
    exact ⟨(replays first shown).1, properties, rfl⟩
  | edited fields => exact replays

theorem Replays.receiveAll (replays : screen.Replays) (inputs : List (Input ι)) :
    (screen.receiveAll inputs).Replays := by
  induction inputs generalizing screen with
  | nil => exact replays
  | cons input inputs ih => exact ih (replays.receive input)

theorem combined_of_first {fields : ι → DataLevel} {inputs : List (Input ι)} {first : Emission ι}
    (shown : (({ fields } : Screen ι).receiveAll inputs).first = some first) :
    ∃ latest, (({ fields } : Screen ι).receiveAll inputs).combined = some latest := by
  have fresh : ({ fields } : Screen ι).Replays := by
    intro first shown
    cases shown
  obtain ⟨⟨levels, listed⟩, properties, known⟩ := fresh.receiveAll inputs first shown
  exact ⟨_, by rw [combined, listed, known]; rfl⟩

end Screen

section Taps

variable [CanonicalForm] [ArraySort]

def getLevel (e : Emission ι) (atSection atRow : Int) : Method (List (SectionModel ι)) (CellInfo ι) := do
  listOfCells e.fields e.userProperties e.levels
  let current ← subscript (← get) atSection
  subscript current.items atRow

def Screen.Displays (screen : Screen ι) (s r : Nat) (cell : CellInfo ι) : Prop :=
  ∃ e cells sec, screen.first = some e ∧ (listOfCells e.fields e.userProperties e.levels).run [] = .ok () cells ∧
    cells[s]? = some sec ∧ sec.items[r]? = some cell

def Screen.Gets (screen : Screen ι) (s r : Nat) (cell : CellInfo ι) : Prop :=
  ∃ e cells, screen.combined = some e ∧ (getLevel e s r).run [] = .ok cell cells

namespace Emission

def chaptersBefore (e : Emission ι) (lvl : ι) : Nat :=
  ((e.levels.map fun other => CanonicalForm.scalars (e.fields other).chapter).toFinset.filter
    (· < CanonicalForm.scalars (e.fields lvl).chapter)).card

/-- The number of public levels of the chapter that are sorted before the position. -/
def publicBefore (e : Emission ι) (p : Nat) (lvl : ι) : Nat :=
  (((byChapter e.fields e.levels).take p).filter fun other =>
    (e.fields other).isPublic && equal (e.fields other).chapter (e.fields lvl).chapter).length

/-- Each public level of the one emission has the same place and the same mark in the other one. -/
def KeepsPlaces (first latest : Emission ι) : Prop :=
  ∀ p lvl, (byChapter first.fields first.levels)[p]? = some lvl → (first.fields lvl).isPublic = true →
    ∃ q, (byChapter latest.fields latest.levels)[q]? = some lvl ∧ (latest.fields lvl).isPublic = true ∧
      latest.chaptersBefore lvl = first.chaptersBefore lvl ∧ latest.publicBefore q lvl = first.publicBefore p lvl ∧
      isCompleted latest.userProperties (latest.fields lvl) = isCompleted first.userProperties (first.fields lvl)

def Places (e : Emission ι) (s r : Nat) (cell : CellInfo ι) : Prop :=
  ∃ p, (byChapter e.fields e.levels)[p]? = some cell.level ∧ (e.fields cell.level).isPublic = true ∧
    cell.isCompleted = isCompleted e.userProperties (e.fields cell.level) ∧ e.chaptersBefore cell.level = s ∧
    e.publicBefore p cell.level = r

theorem keysBelow_eq (e : Emission ι) (lvl : ι) : (scheme e.fields e.userProperties).keysBelow
    (byChapter e.fields e.levels) ((scheme e.fields e.userProperties).keyOf lvl) = e.chaptersBefore lvl := by
  have perm : ((byChapter e.fields e.levels).map (scheme e.fields e.userProperties).keyOf).Perm
      (e.levels.map (scheme e.fields e.userProperties).keyOf) := (ArraySort.perm _ e.levels).map _
  rw [Scheme.keysBelow, List.toFinset_eq_of_perm _ _ perm]
  rfl

theorem length_itemsOf_eq (e : Emission ι) (p : Nat) (lvl : ι) :
    ((scheme e.fields e.userProperties).itemsOf ((scheme e.fields e.userProperties).keyOf lvl)
      ((byChapter e.fields e.levels).take p)).length = e.publicBefore p lvl := by
  rw [publicBefore, ← itemsOf_levels e.fields e.userProperties, List.length_map]
  rfl

theorem shows_iff {e : Emission ι} {s r : Nat} {cell : CellInfo ι} :
    (∃ sec, (sections ((scheme e.fields e.userProperties).groups (byChapter e.fields e.levels)))[s]? = some sec ∧
      sec.items[r]? = some cell) ↔ e.Places s r cell := by
  have placed := (byChapter_exact e.fields e.userProperties e.levels).getElem?_items_iff (s := s) (r := r) (b := cell)
  simp only [sections, List.getElem?_map, Option.map_eq_some_iff, exists_exists_and_eq_and]
  rw [placed]
  constructor
  · intro found
    obtain ⟨p, lvl, place, item, chapters, row⟩ := found
    obtain ⟨rfl, shown, done⟩ := (item_eq_some_iff e.fields e.userProperties).mp item
    rw [keysBelow_eq] at chapters
    rw [length_itemsOf_eq] at row
    exact ⟨p, place, shown, done, chapters, row⟩
  · intro found
    obtain ⟨p, place, shown, done, chapters, row⟩ := found
    refine ⟨p, cell.level, place, (item_eq_some_iff e.fields e.userProperties).mpr ⟨rfl, shown, done⟩, ?_, ?_⟩
    · rw [keysBelow_eq, chapters]
    · rw [length_itemsOf_eq, row]

theorem getLevel_ok_iff {e : Emission ι} {s r : Nat} {cell : CellInfo ι} :
    (∃ cells, (getLevel e s r).run [] = .ok cell cells) ↔ e.Places s r cell := by
  have ran := run_listOfCells e.fields e.userProperties e.levels
  rw [← shows_iff]
  simp only [getLevel, EStateM.run_bind, ran, EStateM.run_get]
  generalize sections ((scheme e.fields e.userProperties).groups (byChapter e.fields e.levels)) = cells
  cases found : cells[s]? with
  | none =>
    have missing : at? cells (s : Int) = none := by rw [at?_natCast, found]
    simp [run_subscript_of_none missing]
  | some sec =>
    have read : at? cells (s : Int) = some sec := by rw [at?_natCast, found]
    simp only [run_subscript_of_some read, Option.some.injEq, exists_eq_left']
    cases found' : sec.items[r]? with
    | none =>
      have missing : at? sec.items (r : Int) = none := by rw [at?_natCast, found']
      simp [run_subscript_of_none missing]
    | some other =>
      have read' : at? sec.items (r : Int) = some other := by rw [at?_natCast, found']
      simp [run_subscript_of_some read']

theorem keepsPlaces_iff {first latest : Emission ι} :
    first.KeepsPlaces latest ↔ ∀ s r cell, first.Places s r cell → latest.Places s r cell := by
  constructor
  · intro keeps s r cell placed
    obtain ⟨p, place, shown, done, chapters, row⟩ := placed
    obtain ⟨q, place', shown', chapters', row', done'⟩ := keeps p cell.level place shown
    exact ⟨q, place', shown', done.trans done'.symm, chapters'.trans chapters, row'.trans row⟩
  · intro same p lvl place shown
    have placed : first.Places (first.chaptersBefore lvl) (first.publicBefore p lvl)
        ⟨lvl, isCompleted first.userProperties (first.fields lvl)⟩ := ⟨p, place, shown, rfl, rfl, rfl⟩
    obtain ⟨q, place', shown', done, chapters, row⟩ := same _ _ _ placed
    exact ⟨q, place', shown', chapters, row, done.symm⟩

end Emission

namespace Screen

theorem displays_iff {screen : Screen ι} {s r : Nat} {cell : CellInfo ι} :
    screen.Displays s r cell ↔ ∃ first, screen.first = some first ∧ first.Places s r cell := by
  constructor
  · intro displayed
    obtain ⟨first, cells, sec, shown, ran, found, row⟩ := displayed
    cases (run_listOfCells first.fields first.userProperties first.levels).symm.trans ran
    exact ⟨first, shown, Emission.shows_iff.mp ⟨sec, found, row⟩⟩
  · intro placed
    obtain ⟨first, shown, places⟩ := placed
    obtain ⟨sec, found, row⟩ := Emission.shows_iff.mpr places
    exact ⟨first, _, sec, shown, run_listOfCells first.fields first.userProperties first.levels, found, row⟩

theorem gets_iff {screen : Screen ι} {s r : Nat} {cell : CellInfo ι} :
    screen.Gets s r cell ↔ ∃ latest, screen.combined = some latest ∧ latest.Places s r cell := by
  constructor
  · intro gets
    obtain ⟨latest, cells, now, ran⟩ := gets
    exact ⟨latest, now, Emission.getLevel_ok_iff.mp ⟨cells, ran⟩⟩
  · intro placed
    obtain ⟨latest, now, places⟩ := placed
    obtain ⟨cells, ran⟩ := Emission.getLevel_ok_iff.mpr places
    exact ⟨latest, cells, now, ran⟩

/-- Whatever is emitted and edited, every tap gets the cell that is displayed exactly while the levels that were shown
    first keep their places. -/
theorem tapped_level_is_shown_iff (fields : ι → DataLevel) (inputs : List (Input ι)) :
    (∀ s r cell, (({ fields } : Screen ι).receiveAll inputs).Displays s r cell →
      (({ fields } : Screen ι).receiveAll inputs).Gets s r cell) ↔
    ∀ first latest, (({ fields } : Screen ι).receiveAll inputs).first = some first →
      (({ fields } : Screen ι).receiveAll inputs).combined = some latest → first.KeepsPlaces latest := by
  simp only [displays_iff, gets_iff]
  constructor
  · intro opens first latest shown now
    refine Emission.keepsPlaces_iff.mpr fun s r cell placed => ?_
    obtain ⟨latest', now', places⟩ := opens s r cell ⟨first, shown, placed⟩
    cases now.symm.trans now'
    exact places
  · intro keeps s r cell displayed
    obtain ⟨first, shown, placed⟩ := displayed
    obtain ⟨latest, now⟩ := combined_of_first shown
    exact ⟨latest, now, Emission.keepsPlaces_iff.mp (keeps first latest shown now) s r cell placed⟩

end Screen

end Taps

def lesson : Nat → DataLevel
  | 0 => { uuid := "loops", isPublic := true, chapter := "Loops" }
  | _ => { uuid := "basics", isPublic := true, chapter := "Basics" }

/-- A level of an earlier chapter is added while the first one is on the screen: a tap on that one gets the new level,
    and one on the screen's only cell traps when the levels are gone. -/
theorem tap_gets_other_level :
    (@Screen.Displays Nat .composed .insertion
        (({ fields := lesson } : Screen Nat).receiveAll [.userProperties {}, .listOfLevels [0], .listOfLevels [0, 1]])
        0 0 ⟨0, false⟩ ∧
      ¬ @Screen.Gets Nat .composed .insertion
        (({ fields := lesson } : Screen Nat).receiveAll [.userProperties {}, .listOfLevels [0], .listOfLevels [0, 1]])
        0 0 ⟨0, false⟩) ∧
    (@Screen.Displays Nat .composed .insertion
        (({ fields := lesson } : Screen Nat).receiveAll [.userProperties {}, .listOfLevels [0], .listOfLevels []])
        0 0 ⟨0, false⟩ ∧
      (@getLevel Nat .composed .insertion ⟨lesson, [], {}⟩ 0 0).run [] = .error .indexOutOfRange []) := by
  refine ⟨⟨?_, fun gets => ?_⟩, ?_, rfl⟩
  · exact ⟨⟨lesson, [0], {}⟩, [{ model := "Loops", items := [⟨0, false⟩] }], _, rfl, rfl, rfl, rfl⟩
  · obtain ⟨latest, cells, now, ran⟩ := gets
    cases now
    have other : (@getLevel Nat .composed .insertion ⟨lesson, [0, 1], {}⟩ 0 0).run [] = .ok ⟨1, false⟩
        [{ model := "Basics", items := [⟨1, false⟩] }, { model := "Loops", items := [⟨0, false⟩] }] := rfl
    cases other.symm.trans ran
  · exact ⟨⟨lesson, [0], {}⟩, [{ model := "Loops", items := [⟨0, false⟩] }], _, rfl, rfl, rfl, rfl⟩

end PublicLevelsViewModel

end ArRobotCode
