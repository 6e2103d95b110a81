import ArRobotCode.Levels.Resizing

namespace ArRobotCode

open Swift Trapping

def DataTile.Typed (t : DataTile) : Prop := 0 ≤ t.type ∧ t.type ≤ 8

namespace DataTile

variable {t : DataTile}

theorem typed_iff : t.Typed ↔ ∃ type : TypeOfTile, t.type = type.rawValue := by
  constructor
  · intro typed
    obtain ⟨low, high⟩ := typed
    have numbers : t.type = 0 ∨ t.type = 1 ∨ t.type = 2 ∨ t.type = 3 ∨ t.type = 4 ∨ t.type = 5 ∨ t.type = 6 ∨
        t.type = 7 ∨ t.type = 8 := by omega
    rcases numbers with same | same | same | same | same | same | same | same | same
    · exact ⟨.free, same⟩
    · exact ⟨.used, same⟩
    · exact ⟨.start, same⟩
    · exact ⟨.finish, same⟩
    · exact ⟨.usedA, same⟩
    · exact ⟨.usedB, same⟩
    · exact ⟨.usedC, same⟩
    · exact ⟨.usedD, same⟩
    · exact ⟨.usedE, same⟩
  · intro numbered
    obtain ⟨type, same⟩ := numbered
    cases type <;> simp [Typed, same, TypeOfTile.rawValue]

theorem Typed.rawValue (type : TypeOfTile) : Typed ⟨type.rawValue⟩ := typed_iff.mpr ⟨type, rfl⟩

theorem Typed.swap (t : DataTile) : t.swap.Typed := by
  unfold DataTile.swap
  split
  · exact .rawValue .used
  · split
    · exact .rawValue .free
    · split
      · exact .rawValue .finish
      · exact .rawValue .free

theorem Typed.cycleLeft (typed : t.Typed) : t.cycleLeft.Typed := by
  obtain ⟨type, same⟩ := typed_iff.mp typed
  cases type <;> simp [DataTile.cycleLeft, same, TypeOfTile.rawValue, Typed]

theorem Typed.cycleRight (typed : t.Typed) : t.cycleRight.Typed := by
  obtain ⟨type, same⟩ := typed_iff.mp typed
  cases type <;> simp [DataTile.cycleRight, same, TypeOfTile.rawValue, Typed]

theorem Typed.setToStart (t : DataTile) : t.setToStart.Typed := .rawValue .start

end DataTile

def DataLevel.Typed (l : DataLevel) : Prop := ∀ t ∈ l.tiles, t.Typed

namespace Edit

def tile? : Edit → Option Int
  | swapTile at' | swipeLeftTile at' | swipeRightTile at' | setToStartTile at' => some at'
  | setName _ | setWidth _ | setHeight _ | setPublic _ | setOrder _ | setChapter _ => none

/-- A tile edit names a tile of the level, a size edit the text of a non-negative number that leaves the number of
    tiles an `Int`. -/
def InRange (l : DataLevel) : Edit → Prop
  | swapTile at' | swipeLeftTile at' | swipeRightTile at' | setToStartTile at' => 0 ≤ at' ∧ at' < l.tiles.length
  | setWidth newWidth => ∃ n ∈ parseInt newWidth, 0 ≤ n ∧ n * l.height ≤ intMax
  | setHeight newHeight => ∃ n ∈ parseInt newHeight, 0 ≤ n ∧ l.width * n ≤ intMax
  | setName _ | setPublic _ | setOrder _ | setChapter _ => True

structure Shapes (e : Edit) (l l' : DataLevel) : Prop where
  formed : l'.WellFormed
  typed : l'.Typed
  resizedWidth : ∀ newWidth n, e = .setWidth newWidth → parseInt newWidth = some n →
    if n = l.width then l' = l
    else l'.width = n ∧ l'.height = l.height ∧ (∀ t ∈ l'.tiles, t.type = TypeOfTile.free.rawValue) ∧
      DataLevel.ReAssigned { l with width := n } l'
  resizedHeight : ∀ newHeight n, e = .setHeight newHeight → parseInt newHeight = some n →
    if n = l.height then l' = l
    else l'.height = n ∧ l'.width = l.width ∧ (∀ t ∈ l'.tiles, t.type = TypeOfTile.free.rawValue) ∧
      DataLevel.ReAssigned { l with height := n } l'
  tile : ∀ at' ∈ e.tile?, l'.width = l.width ∧ l'.height = l.height ∧ l'.tiles.length = l.tiles.length ∧
    ∀ j : Nat, (j : Int) ≠ at' → l'.tiles[j]? = l.tiles[j]?

variable {e : Edit} {l : DataLevel}

theorem InRange.fits (inRange : e.InRange l) (formed : l.WellFormed) : e.Fits l := by
  cases e with
  | swapTile at' | swipeLeftTile at' | swipeRightTile at' | setToStartTile at' => exact inRange
  | setName _ | setPublic _ | setOrder _ | setChapter _ => trivial
  | setWidth newWidth =>
    obtain ⟨n, parsed, nonneg, most⟩ := inRange
    exact ⟨n, parsed, Int.mul_nonneg nonneg formed.height, most⟩
  | setHeight newHeight =>
    obtain ⟨n, parsed, nonneg, most⟩ := inRange
    exact ⟨n, parsed, Int.mul_nonneg formed.width nonneg, most⟩

theorem InRange.valid (inRange : e.InRange l) : e.Valid := by
  cases e with
  | setWidth newWidth | setHeight newHeight =>
    obtain ⟨n, parsed, nonneg, _⟩ := inRange
    exact ⟨n, parsed, nonneg⟩
  | _ => trivial

theorem inRange_setWidth_decimal {n : Nat} (fits : (n : Int) ≤ intMax) (count : n * l.height ≤ intMax) :
    (setWidth (toString n)).InRange l :=
  ⟨n, parseInt_toString fits, by omega, count⟩

theorem typed_modify {tiles : List DataTile} (typed : ∀ t ∈ tiles, t.Typed) {edit : DataTile → DataTile}
    (keeps : ∀ t : DataTile, t.Typed → (edit t).Typed) (i : Nat) : ∀ t ∈ tiles.modify i edit, t.Typed := by
  intro t member
  obtain ⟨j, found⟩ := List.mem_iff_getElem?.mp member
  rw [List.getElem?_modify] at found
  cases here : tiles[j]? with
  | none => simp [here] at found
  | some old =>
    have old_typed := typed old (List.mem_of_getElem? here)
    simp only [here, Option.map_eq_map, Option.map_some, Option.some.injEq] at found
    rw [← found]
    split
    · exact keeps old old_typed
    · exact old_typed

theorem free_of_replicate {n : Nat} : ∀ t ∈ List.replicate n ({} : DataTile), t.type = TypeOfTile.free.rawValue := by
  intro t member
  rw [List.eq_of_mem_replicate member]
  rfl

theorem typed_of_free {tiles : List DataTile} (free : ∀ t ∈ tiles, t.type = TypeOfTile.free.rawValue) :
    ∀ t ∈ tiles, t.Typed :=
  fun t member => DataTile.typed_iff.mpr ⟨.free, free t member⟩

theorem Shapes.of_skipped [CanonicalForm] (formed : l.WellFormed) (typed : l.Typed) (skipped : e.Skipped l) :
    e.Shapes l l where
  formed := formed
  typed := typed
  resizedWidth newWidth n same parsed := by
    subst same
    simp only [Skipped, parsed, Option.some.injEq] at skipped
    rw [if_pos skipped.symm]
  resizedHeight newHeight n same parsed := by
    subst same
    simp only [Skipped, parsed, Option.some.injEq] at skipped
    rw [if_pos skipped.symm]
  tile at' _ := ⟨rfl, rfl, rfl, fun _ _ => rfl⟩

theorem Shapes.modified {edit : DataTile → DataTile} {at' : Int} (formed : l.WellFormed) (typed : l.Typed)
    (keeps : ∀ t : DataTile, t.Typed → (edit t).Typed) (nonneg : 0 ≤ at') (edits : e.tile? = some at') :
    e.Shapes l { l with tiles := l.tiles.modify at'.toNat edit } where
  formed := ⟨formed.width, formed.height, by simpa using formed.count, by simpa using formed.fits⟩
  typed := typed_modify typed keeps at'.toNat
  resizedWidth newWidth n same := by
    subst same
    cases edits
  resizedHeight newHeight n same := by
    subst same
    cases edits
  tile at'' member := by
    cases edits.symm.trans member
    refine ⟨rfl, rfl, by simp, fun j other => ?_⟩
    have differs : at'.toNat ≠ j := by omega
    simp [differs]

theorem Shapes.applied [CanonicalForm] (formed : l.WellFormed) (typed : l.Typed) (inRange : e.InRange l)
    (edits : ¬ e.Skipped l) : e.Shapes l (e.applied l) := by
  have kept := formed.applied (inRange.fits formed) inRange.valid
  cases e with
  | swapTile at' => exact .modified formed typed (fun t _ => .swap t) inRange.1 rfl
  | swipeLeftTile at' => exact .modified formed typed (fun _ => .cycleRight) inRange.1 rfl
  | swipeRightTile at' => exact .modified formed typed (fun _ => .cycleLeft) inRange.1 rfl
  | setToStartTile at' => exact .modified formed typed (fun t _ => .setToStart t) inRange.1 rfl
  | setName _ | setPublic _ | setOrder _ | setChapter _ =>
    exact ⟨kept, typed, by simp, by simp, by simp [tile?]⟩
  | setWidth newWidth =>
    obtain ⟨n, parsed, nonneg, most⟩ := inRange
    have count : DataLevel.TileCount (n * l.height) := ⟨Int.mul_nonneg nonneg formed.height, most⟩
    simp only [Edit.applied, Option.mem_def.mp parsed, Option.elim_some] at kept ⊢
    refine ⟨kept, typed_of_free free_of_replicate, fun _ m same parsed' => ?_, by simp, by simp [tile?]⟩
    cases same
    cases parsed.symm.trans parsed'
    have differs : n ≠ l.width := by
      intro same
      simp [Skipped, Option.mem_def.mp parsed, same] at edits
    rw [if_neg differs]
    have ran := DataLevel.run_reAssignTiles (l := { l with width := n }) count
    exact ⟨rfl, rfl, free_of_replicate, DataLevel.run_reAssignTiles_iff.mp ran⟩
  | setHeight newHeight =>
    obtain ⟨n, parsed, nonneg, most⟩ := inRange
    have count : DataLevel.TileCount (l.width * n) := ⟨Int.mul_nonneg formed.width nonneg, most⟩
    simp only [Edit.applied, Option.mem_def.mp parsed, Option.elim_some] at kept ⊢
    refine ⟨kept, typed_of_free free_of_replicate, by simp, fun _ m same parsed' => ?_, by simp [tile?]⟩
    cases same
    cases parsed.symm.trans parsed'
    have differs : n ≠ l.height := by
      intro same
      simp [Skipped, Option.mem_def.mp parsed, same] at edits
    rw [if_neg differs]
    have ran := DataLevel.run_reAssignTiles (l := { l with height := n }) count
    exact ⟨rfl, rfl, free_of_replicate, DataLevel.run_reAssignTiles_iff.mp ran⟩

end Edit

namespace LevelViewModel

def InRange (v : LevelViewModel) (e : Edit) : Prop :=
  ∀ l, at? v.levelsRepository.entities v.levelAt = some l → e.InRange l

def Formed (at' : Int) (v : LevelViewModel) : Prop :=
  v.levelAt = at' ∧ ∃ l, at? v.levelsRepository.entities at' = some l ∧ l.WellFormed ∧ l.Typed

section Runs

variable [CanonicalForm]

def Shaped (at' : Int) (e : Edit) (v v' : LevelViewModel) : Prop :=
  e.perform.run v = .ok () v' ∧ ∃ l l', at? v.levelsRepository.entities at' = some l ∧
    at? v'.levelsRepository.entities at' = some l' ∧ e.Shapes l l'

theorem perform_shapes {at' : Int} {e : Edit} {v : LevelViewModel} (formed : v.Formed at') (inRange : v.InRange e) :
    ∃ v', v.Shaped at' e v' ∧ v'.Formed at' := by
  obtain ⟨rfl, l, found, formed, typed⟩ := formed
  have here := inRange l found
  by_cases skipped : e.Skipped l
  · have same := Edit.Shapes.of_skipped formed typed skipped
    exact ⟨v, ⟨(Edit.run_perform_some found e).1 skipped, l, l, found, found, same⟩, rfl, l, found, formed, typed⟩
  · have shapes := Edit.Shapes.applied formed typed here skipped
    have place := at?_set (b := e.applied l) found
    refine ⟨v.afterEdit (e.applied l), ⟨Edit.perform_fits found skipped (here.fits formed), l, e.applied l, found,
      place, shapes⟩, rfl, e.applied l, place, shapes.formed, shapes.typed⟩

theorem runAll_shapes {at' : Int} {edits : List Edit} {v : LevelViewModel} (formed : v.Formed at')
    (inRange : Along Edit.perform InRange edits v) :
    (∃ v', (runAll Edit.perform edits).run v = .ok () v') ∧
      ∀ before e after, edits = before ++ e :: after →
        ∃ v₁ v₂, (runAll Edit.perform before).run v = .ok () v₁ ∧ v₁.Shaped at' e v₂ := by
  induction edits generalizing v with
  | nil =>
    refine ⟨⟨v, rfl⟩, fun before e after split => ?_⟩
    simp at split
  | cons edit edits ih =>
    obtain ⟨next, shaped, formed'⟩ := perform_shapes formed inRange.1
    obtain ⟨⟨v', rest⟩, each⟩ := ih formed' (inRange.tail shaped.1)
    refine ⟨⟨v', runAll_cons_ok.mpr ⟨next, shaped.1, rest⟩⟩, fun before e after split => ?_⟩
    cases before with
    | nil =>
      cases split
      exact ⟨v, next, rfl, shaped⟩
    | cons first before =>
      cases split
      obtain ⟨v₁, v₂, ran, last⟩ := each before e after rfl
      exact ⟨v₁, v₂, runAll_cons_ok.mpr ⟨next, shaped.1, ran⟩, last⟩

/-- An editor on a new level performs every sequence of edits in range to its end, and each of them leaves a level
    with as many tiles as its sides say, all of a known type. -/
theorem edits_keep_level_formed {repository : LevelsRepository} {at' : Int} {uuid name byUserID : String}
    {v : LevelViewModel} (found : at? repository.entities at' = some (DataLevel.new5x5 uuid name byUserID))
    (opened : init repository at' = .ok v) {edits : List Edit} (inRange : Along Edit.perform InRange edits v) :
    (∃ v', (runAll Edit.perform edits).run v = .ok () v') ∧
      ∀ before e after, edits = before ++ e :: after →
        ∃ v₁ v₂, (runAll Edit.perform before).run v = .ok () v₁ ∧ v₁.Shaped at' e v₂ := by
  apply runAll_shapes _ inRange
  rw [init_some found] at opened
  cases opened
  exact ⟨rfl, _, found, DataLevel.new5x5_wellFormed uuid name byUserID,
    Edit.typed_of_free Edit.free_of_replicate⟩

end Runs

local instance shapedTexts : CanonicalForm := .composed

def onNewLevel : LevelViewModel where
  levelsRepository := { entities := [DataLevel.new5x5 "level" "name" "user"] }
  levelAt := 0
  level := DataLevel.new5x5 "level" "name" "user"

theorem edits_keep_level_formed_start_narrow :
    (∃ v', (runAll Edit.perform [.setToStartTile 7, .setWidth (toString 3)]).run onNewLevel = .ok () v') ∧
      ∀ before e after, [Edit.setToStartTile 7, .setWidth (toString 3)] = before ++ e :: after →
        ∃ v₁ v₂, (runAll Edit.perform before).run onNewLevel = .ok () v₁ ∧ v₁.Shaped 0 e v₂ := by
  have found : at? onNewLevel.levelsRepository.entities 0 = some (DataLevel.new5x5 "level" "name" "user") := rfl
  have here : (Edit.setToStartTile 7).InRange (DataLevel.new5x5 "level" "name" "user") :=
    ⟨by decide, by decide⟩
  have ran := Edit.perform_fits (v := onNewLevel) found (e := .setToStartTile 7) id here
  apply edits_keep_level_formed found rfl
  apply Along.cons _ ran (Along.single _)
  · intro l same
    cases found.symm.trans same
    exact here
  · intro l same
    cases (at?_set found).symm.trans same
    exact Edit.inRange_setWidth_decimal (by decide) (by decide)

end LevelViewModel

end ArRobotCode
