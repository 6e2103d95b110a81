import ArRobotCode.Main.PublicLevels

namespace ArRobotCode

open Swift Grouping

namespace PublicLevelsViewModel

section Hiding

variable [CanonicalForm] {ι : Type}

def SameSections (first second : List (SectionModel ι)) : Prop :=
  List.Forall₂ (fun sec sec' => equal sec.model sec'.model = true ∧ sec.items.Perm sec'.items) first second

/-- Every chapter of a private level of the list is the chapter of a level of the other list that passes the test. -/
def PrivateChaptersIn (fields : ι → DataLevel) (levels others : List ι) (test : ι → Prop) : Prop :=
  ∀ lvl ∈ levels, (fields lvl).isPublic = false →
    ∃ other ∈ others, test other ∧ equal (fields other).chapter (fields lvl).chapter = true

variable (fields : ι → DataLevel) (userProperties : UserProperties)

theorem itemsOf_public (k : Scalars) (levels : List ι) :
    (scheme fields userProperties).itemsOf k (levels.filter fun lvl => (fields lvl).isPublic) =
      (scheme fields userProperties).itemsOf k levels := by
  rw [Scheme.itemsOf, List.filterMap_filter]
  apply List.filterMap_congr
  intro lvl _
  cases shown : (fields lvl).isPublic <;> simp [scheme, shown]

theorem itemsOf_byChapter [ArraySort] (k : Scalars) (levels : List ι) :
    ((scheme fields userProperties).itemsOf k (byChapter fields levels)).Perm
      ((scheme fields userProperties).itemsOf k levels) :=
  (ArraySort.perm _ levels).filterMap _

theorem mem_byChapter [ArraySort] {levels : List ι} {lvl : ι} : lvl ∈ byChapter fields levels ↔ lvl ∈ levels :=
  (ArraySort.perm _ levels).mem_iff

variable {fields userProperties} {levels levels' : List ι}

theorem PrivateChaptersIn.covers {others : List ι} {test : ι → Prop}
    (covered : PrivateChaptersIn fields levels others test)
    (itself : ∀ lvl, (fields lvl).isPublic = true → lvl ∈ levels → lvl ∈ others ∧ test lvl) {lvl : ι}
    (member : lvl ∈ levels) : ∃ other ∈ others, test other ∧
      (scheme fields userProperties).keyOf other = (scheme fields userProperties).keyOf lvl := by
  cases shown : (fields lvl).isPublic with
  | true =>
    obtain ⟨listed, passes⟩ := itself lvl shown member
    exact ⟨lvl, listed, passes, rfl⟩
  | false =>
    obtain ⟨other, listed, passes, chapter⟩ := covered lvl member shown
    exact ⟨other, listed, passes, equal_iff.mp chapter⟩

theorem covered_iff (shared : ∀ lvl, (fields lvl).isPublic = true → lvl ∈ levels → lvl ∈ levels') :
    (∀ lvl ∈ levels, ∃ other ∈ levels', (scheme fields userProperties).keyOf other =
        (scheme fields userProperties).keyOf lvl) ↔
      PrivateChaptersIn fields levels levels' fun _ => True := by
  constructor
  · intro covered lvl member _
    obtain ⟨other, listed, key⟩ := covered lvl member
    exact ⟨other, listed, trivial, equal_iff.mpr key⟩
  · intro covered lvl member
    obtain ⟨other, listed, _, key⟩ := covered.covers (fun lvl shown listed => ⟨shared lvl shown listed, trivial⟩) member
    exact ⟨other, listed, key⟩

theorem itemsOf_ne_nil_iff {k : Scalars} : (scheme fields userProperties).itemsOf k levels ≠ [] ↔
    ∃ other ∈ levels, (fields other).isPublic = true ∧ (scheme fields userProperties).keyOf other = k := by
  constructor
  · intro some
    obtain ⟨cell, shown⟩ := List.exists_mem_of_ne_nil _ some
    obtain ⟨other, listed, item⟩ := List.mem_filterMap.mp shown
    split at item
    · rename_i same
      obtain ⟨_, isPublic, _⟩ := (item_eq_some_iff fields userProperties).mp item
      exact ⟨other, listed, isPublic, same⟩
    · cases item
  · intro found
    obtain ⟨other, listed, isPublic, same⟩ := found
    apply List.ne_nil_of_mem (a := ⟨other, isCompleted userProperties (fields other)⟩)
    apply List.mem_filterMap.mpr
    refine ⟨other, listed, ?_⟩
    rw [if_pos same, item_eq_some_iff]
    exact ⟨rfl, isPublic, rfl⟩

variable [ArraySort] (userProperties)

theorem sameSections_iff
    (samePublic : (levels.filter fun lvl => (fields lvl).isPublic) = levels'.filter fun lvl => (fields lvl).isPublic) :
    SameSections (sections ((scheme fields userProperties).groups (byChapter fields levels)))
        (sections ((scheme fields userProperties).groups (byChapter fields levels'))) ↔
      PrivateChaptersIn fields levels levels' (fun _ => True) ∧
        PrivateChaptersIn fields levels' levels (fun _ => True) := by
  have exact := byChapter_exact fields userProperties levels
  have exact' := byChapter_exact fields userProperties levels'
  have shared (lvl : ι) (shown : (fields lvl).isPublic = true) : lvl ∈ levels ↔ lvl ∈ levels' := by
    have member := congrArg (lvl ∈ ·) samePublic
    simpa [shown] using member
  have perm (sec) (member : sec ∈ (scheme fields userProperties).groups (byChapter fields levels)) (sec')
      (member' : sec' ∈ (scheme fields userProperties).groups (byChapter fields levels'))
      (same : (scheme fields userProperties).key sec.label = (scheme fields userProperties).key sec'.label) :
      sec.items.Perm sec'.items := by
    have publicItems := itemsOf_public fields userProperties ((scheme fields userProperties).key sec'.label) levels
    rw [samePublic, itemsOf_public] at publicItems
    rw [exact.items sec member, exact'.items sec' member', same]
    apply (itemsOf_byChapter fields userProperties _ levels).trans
    rw [← publicItems]
    exact (itemsOf_byChapter fields userProperties _ levels').symm
  have keys := exact.keys_eq_iff exact'
  rw [Scheme.keys_iff_covered] at keys
  simp only [mem_byChapter] at keys
  rw [covered_iff fun lvl shown => (shared lvl shown).mp, covered_iff fun lvl shown => (shared lvl shown).mpr] at keys
  rw [← keys, ← forall₂_map_eq_iff perm]
  simp only [SameSections, sections, List.forall₂_map_left_iff, List.forall₂_map_right_iff, equal_iff]
  exact Iff.rfl

theorem no_empty_section_iff :
    (∀ sec ∈ sections ((scheme fields userProperties).groups (byChapter fields levels)), sec.items ≠ []) ↔
      PrivateChaptersIn fields levels levels fun other => (fields other).isPublic = true := by
  have exact := byChapter_exact fields userProperties levels
  constructor
  · intro filled lvl member _
    obtain ⟨group, listed, key⟩ := (exact.keys _).mpr ⟨lvl, (mem_byChapter fields).mpr member, rfl⟩
    have some := filled _ (List.mem_map_of_mem listed)
    simp only [exact.items group listed, key] at some
    obtain ⟨other, listed', isPublic, same⟩ := itemsOf_ne_nil_iff.mp some
    exact ⟨other, (mem_byChapter fields).mp listed', isPublic, equal_iff.mpr same⟩
  · intro covered sec member
    obtain ⟨group, listed, rfl⟩ := List.mem_map.mp member
    obtain ⟨lvl, member', key⟩ := (exact.keys _).mp ⟨group, listed, rfl⟩
    obtain ⟨other, listed', isPublic, same⟩ :=
      covered.covers (fun lvl shown listed => ⟨listed, shown⟩) ((mem_byChapter fields).mp member')
    simp only [exact.items group listed, ← key]
    exact itemsOf_ne_nil_iff.mpr ⟨other, (mem_byChapter fields).mpr listed', isPublic, same⟩

variable {userProperties}

def SameScreen (fields : ι → DataLevel) (userProperties : UserProperties) (levels levels' : List ι) : Prop :=
  ∃ cells cells', (listOfCells fields userProperties levels).run [] = .ok () cells ∧
    (listOfCells fields userProperties levels').run [] = .ok () cells' ∧ SameSections cells cells'

def NoEmptySection (fields : ι → DataLevel) (userProperties : UserProperties) (levels : List ι) : Prop :=
  ∃ cells, (listOfCells fields userProperties levels).run [] = .ok () cells ∧ ∀ sec ∈ cells, sec.items ≠ []

/-- Two lists with the same public levels look the same exactly when each chapter of a private level of one of them is
    a chapter of the other one, and a list shows no empty section exactly when each has a public level. -/
theorem private_levels_hidden_iff
    (samePublic : (levels.filter fun lvl => (fields lvl).isPublic) = levels'.filter fun lvl => (fields lvl).isPublic)
    (userProperties : UserProperties) :
    (SameScreen fields userProperties levels levels' ↔
      PrivateChaptersIn fields levels levels' (fun _ => True) ∧
        PrivateChaptersIn fields levels' levels (fun _ => True)) ∧
    (NoEmptySection fields userProperties levels ↔
      PrivateChaptersIn fields levels levels fun other => (fields other).isPublic = true) := by
  have ran := run_listOfCells fields userProperties levels
  have ran' := run_listOfCells fields userProperties levels'
  constructor
  · rw [← sameSections_iff userProperties samePublic]
    constructor
    · intro same
      obtain ⟨cells, cells', first, second, sections⟩ := same
      cases ran.symm.trans first
      cases ran'.symm.trans second
      exact sections
    · intro sections
      exact ⟨_, _, ran, ran', sections⟩
  · rw [← no_empty_section_iff userProperties]
    constructor
    · intro filled
      obtain ⟨cells, first, some⟩ := filled
      cases ran.symm.trans first
      exact some
    · intro some
      exact ⟨_, ran, some⟩

end Hiding

def firstLoop : DataLevel := { uuid := "firstLoop", isPublic := true, chapter := "Loops" }

def secret (chapter : String) : DataLevel := { uuid := "secret", chapter }

theorem private_levels_hidden_same_chapter :
    @SameScreen .composed DataLevel .insertion id {} [firstLoop, secret "Loops"] [firstLoop] := by
  refine (@private_levels_hidden_iff .composed DataLevel id [firstLoop, secret "Loops"] [firstLoop] .insertion
    rfl {}).1.mpr ⟨fun lvl member hidden => ⟨firstLoop, by simp, trivial, ?_⟩, fun lvl member hidden => ?_⟩
  · rcases List.mem_cons.mp member with same | rest
    · rw [same]
      decide
    · rw [List.mem_singleton.mp rest]
      decide
  · rw [List.mem_singleton.mp member] at hidden
    cases hidden

/-- A private level whose chapter is not yet anyone's public one opens a section without levels. -/
theorem private_level_opens_section :
    ([firstLoop, secret "Drafts"].filter fun lvl => (id lvl).isPublic) =
      ([firstLoop].filter fun lvl => (id lvl).isPublic) ∧
    ¬ @SameScreen .composed DataLevel .insertion id {} [firstLoop, secret "Drafts"] [firstLoop] ∧
    ¬ @NoEmptySection .composed DataLevel .insertion id {} [firstLoop, secret "Drafts"] := by
  have first : (@listOfCells .composed DataLevel id {} .insertion [firstLoop, secret "Drafts"]).run [] =
      .ok () [{ model := "Drafts" }, { model := "Loops", items := [⟨firstLoop, false⟩] }] := by rfl
  have second : (@listOfCells .composed DataLevel id {} .insertion [firstLoop]).run [] =
      .ok () [{ model := "Loops", items := [⟨firstLoop, false⟩] }] := by rfl
  refine ⟨rfl, fun same => ?_, fun filled => ?_⟩
  · obtain ⟨cells, cells', ran, ran', sections⟩ := same
    cases first.symm.trans ran
    cases second.symm.trans ran'
    exact absurd sections.length_eq (by decide)
  · obtain ⟨cells, ran, some⟩ := filled
    cases first.symm.trans ran
    exact some { model := "Drafts" } (by simp) rfl

end PublicLevelsViewModel

end ArRobotCode
