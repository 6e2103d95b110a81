import ArRobotCode.Library.Grouping
import ArRobotCode.Swift.Sorting
import ArRobotCode.Entities.DataLevel
import ArRobotCode.Users.UserRepository

namespace ArRobotCode

open Swift Grouping

/-- A level is an object: `ι` are the objects, each of which has the fields of a `DataLevel`. -/
structure CellInfo (ι : Type) where
  level : ι
  isCompleted : Bool
deriving DecidableEq, Repr

structure SectionModel (ι : Type) where
  model : String
  items : List (CellInfo ι) := []
deriving DecidableEq, Repr

namespace PublicLevelsViewModel

variable [CanonicalForm] {ι : Type}

def isCompleted (userProperties : UserProperties) (level : DataLevel) : Bool :=
  userProperties.completedLevels.any fun lvlCompleted => equal lvlCompleted level.uuid

variable (fields : ι → DataLevel) (userProperties : UserProperties)

def appendItem (lvl : ι) (sectionNumber : Int) : Method (List (SectionModel ι)) Unit := do
  let cell : CellInfo ι := { level := lvl, isCompleted := isCompleted userProperties (fields lvl) }
  let current ← subscript (← get) sectionNumber
  modify fun cells => cells.set sectionNumber.toNat { current with items := current.items ++ [cell] }

/-- One round of the loop; it returns the number of the section that is current afterwards. -/
def groupLevel (lvlsByChapter : List ι) (i sectionNumber : Int) : Method (List (SectionModel ι)) Int := do
  let lvl ← subscript lvlsByChapter i
  let opens ← if i = 0 then pure true else do
    let previous ← subscript lvlsByChapter (i - 1)
    pure !(equal (fields lvl).chapter (fields previous).chapter)
  let sectionNumber := if opens then sectionNumber + 1 else sectionNumber
  if opens then
    modify fun cells => cells ++ [{ model := (fields lvl).chapter }]
  if (fields lvl).isPublic then
    appendItem fields userProperties lvl sectionNumber
  return sectionNumber

def groupFrom (lvlsByChapter : List ι) : (remaining : Nat) → (i sectionNumber : Int) →
    Method (List (SectionModel ι)) Unit
  | 0, _, _ => return
  | remaining + 1, i, sectionNumber => do
    let sectionNumber ← groupLevel fields userProperties lvlsByChapter i sectionNumber
    groupFrom lvlsByChapter remaining (i + 1) sectionNumber

def byChapter [ArraySort] (levels : List ι) : List ι :=
  ArraySort.sort (fun levelA levelB => less (fields levelA).chapter (fields levelB).chapter) levels

/-- The closure of the `map`. -/
def listOfCells [ArraySort] (levels : List ι) : Method (List (SectionModel ι)) Unit := do
  if levels.length = 0 then return
  let lvlsByChapter := byChapter fields levels
  groupFrom fields userProperties lvlsByChapter lvlsByChapter.length 0 (-1)

def scheme : Scheme ι String Scalars (CellInfo ι) where
  label lvl := (fields lvl).chapter
  key := CanonicalForm.scalars
  item lvl :=
    if (fields lvl).isPublic then some { level := lvl, isCompleted := isCompleted userProperties (fields lvl) }
    else none

def sections (groups : List (Group String (CellInfo ι))) : List (SectionModel ι) :=
  groups.map fun group => { model := group.label, items := group.items }

theorem run_appendItem (init : List (SectionModel ι)) (last : SectionModel ι) (lvl : ι) {n : Int}
    (current : n = init.length) :
    (appendItem fields userProperties lvl n).run (init ++ [last]) = .ok () (init ++ [{ last with
      items := last.items ++ [{ level := lvl, isCompleted := isCompleted userProperties (fields lvl) }] }]) := by
  subst current
  have found : at? (init ++ [last]) (init.length : Int) = some last := by simp
  simp [appendItem, EStateM.run_bind, run_subscript_of_some found]

theorem equal_iff {a b : String} : equal a b = true ↔ CanonicalForm.scalars a = CanonicalForm.scalars b := by
  simp [equal]

theorem run_groupLevel_first (lvl : ι) (rest : List ι) :
    (groupLevel fields userProperties (lvl :: rest) 0 (-1)).run [] =
      .ok 0 (sections ((scheme fields userProperties).groups [lvl])) := by
  have read : at? (lvl :: rest) 0 = some lvl := rfl
  have added := run_appendItem fields userProperties [] { model := (fields lvl).chapter }
      lvl (n := 0) rfl
  simp only [List.nil_append] at added
  cases shown : (fields lvl).isPublic with
  | false => simp [groupLevel, -bind_pure_comp, EStateM.run_bind, run_subscript_of_some read, shown, sections, scheme,
      Scheme.groups, Scheme.place_nil]
  | true =>
    simp [groupLevel, -bind_pure_comp, EStateM.run_bind, run_subscript_of_some read, shown, sections, scheme,
      Scheme.groups, Scheme.place_nil, added]

theorem run_groupLevel_next {lvls : List ι} {i : Int} {previous lvl : ι} {init : List (Group String (CellInfo ι))}
    {last : Group String (CellInfo ι)} (later : i ≠ 0) (read : at? lvls i = some lvl)
    (back : at? lvls (i - 1) = some previous)
    (key : (scheme fields userProperties).key last.label = (scheme fields userProperties).keyOf previous) :
    (groupLevel fields userProperties lvls i init.length).run (sections (init ++ [last])) =
      .ok (((scheme fields userProperties).place (init ++ [last]) lvl).length - 1)
        (sections ((scheme fields userProperties).place (init ++ [last]) lvl)) := by
  by_cases same : (scheme fields userProperties).key last.label = (scheme fields userProperties).keyOf lvl
  · have stays : equal (fields lvl).chapter (fields previous).chapter = true := equal_iff.mpr (same.symm.trans key)
    have added := run_appendItem fields userProperties (sections init)
      { model := last.label, items := last.items } lvl (n := init.length) (by simp [sections])
    rw [Scheme.place_same same]
    cases shown : (fields lvl).isPublic with
    | false => simp [groupLevel, -bind_pure_comp, EStateM.run_bind, later, run_subscript_of_some read,
        run_subscript_of_some back, stays, shown, sections, scheme]
    | true =>
      simp only [sections] at added
      simp [groupLevel, -bind_pure_comp, EStateM.run_bind, later, run_subscript_of_some read,
        run_subscript_of_some back, stays, shown, sections, scheme, added]
  · have opens : equal (fields lvl).chapter (fields previous).chapter = false := by
      rw [Bool.eq_false_iff]
      exact fun stays => same (key.trans (equal_iff.mp stays).symm)
    have added := run_appendItem fields userProperties (sections (init ++ [last]))
      { model := (fields lvl).chapter } lvl (n := init.length + 1) (by simp [sections])
    rw [Scheme.place_new same]
    cases shown : (fields lvl).isPublic with
    | false =>
      simp [groupLevel, -bind_pure_comp, EStateM.run_bind, later, run_subscript_of_some read,
        run_subscript_of_some back, opens, shown, sections, scheme]
      omega
    | true =>
      simp only [sections, List.map_append, List.map_cons, List.map_nil, List.nil_append, List.append_assoc,
        List.cons_append] at added
      simp [groupLevel, -bind_pure_comp, EStateM.run_bind, later, run_subscript_of_some read,
        run_subscript_of_some back, opens, shown, sections, scheme, added]
      omega

theorem run_groupFrom (later : List ι) (earlier : List ι) {i sectionNumber : Int} (position : i = earlier.length)
    (current : sectionNumber = ((scheme fields userProperties).groups earlier).length - 1) :
    (groupFrom fields userProperties (earlier ++ later) later.length i sectionNumber).run
      (sections ((scheme fields userProperties).groups earlier)) =
      .ok () (sections ((scheme fields userProperties).groups (earlier ++ later))) := by
  subst position current
  induction later generalizing earlier with
  | nil => simp [groupFrom]
  | cons lvl later ih =>
    have round : (groupLevel fields userProperties (earlier ++ lvl :: later) earlier.length
          (((scheme fields userProperties).groups earlier).length - 1)).run
        (sections ((scheme fields userProperties).groups earlier)) =
        .ok (((scheme fields userProperties).groups (earlier ++ [lvl])).length - 1)
          (sections ((scheme fields userProperties).groups (earlier ++ [lvl]))) := by
      rcases List.eq_nil_or_concat earlier with empty | ⟨before, previous, shape⟩
      · subst empty
        exact run_groupLevel_first fields userProperties lvl later
      · rw [List.concat_eq_append] at shape
        obtain ⟨init, last, groups, key⟩ := (scheme fields userProperties).groups_getLast before previous
        rw [← shape] at groups
        have read : at? (earlier ++ lvl :: later) (earlier.length : Int) = some lvl := by simp
        have back : at? (earlier ++ lvl :: later) (earlier.length - 1 : Int) = some previous := by simp [shape]
        have number : ((init ++ [last]).length : Int) - 1 = init.length := by simp
        rw [Scheme.groups_append_singleton, groups, number]
        have notFirst : (earlier.length : Int) ≠ 0 := by
          rw [shape, List.length_append, List.length_singleton]
          omega
        exact run_groupLevel_next fields userProperties notFirst read back key
    have rest := ih (earlier ++ [lvl])
    simp only [List.append_assoc, List.cons_append, List.nil_append, List.length_append, List.length_cons,
      List.length_nil] at rest
    rw [List.length_cons, groupFrom, EStateM.run_bind, round]
    exact rest

theorem run_listOfCells [ArraySort] (levels : List ι) : (listOfCells fields userProperties levels).run [] =
    .ok () (sections ((scheme fields userProperties).groups (byChapter fields levels))) := by
  have ran := run_groupFrom fields userProperties (byChapter fields levels) (i := 0) [] rfl rfl
  by_cases empty : levels.length = 0
  · have none : byChapter fields levels = [] := by
      apply List.eq_nil_of_length_eq_zero
      rw [byChapter, (ArraySort.perm _ levels).length_eq, empty]
    simp [listOfCells, empty, none, sections]
  · simp only [listOfCells, empty, if_false]
    exact ran

theorem byChapter_sorted [ArraySort] (levels : List ι) : (byChapter fields levels).Pairwise fun a b =>
    (scheme fields userProperties).keyOf a ≤ (scheme fields userProperties).keyOf b :=
  ArraySort.ordered (fun lvl => CanonicalForm.scalars (fields lvl).chapter) levels

theorem byChapter_exact [ArraySort] (levels : List ι) : (scheme fields userProperties).Exact (byChapter fields levels)
    ((scheme fields userProperties).groups (byChapter fields levels)) :=
  Scheme.groups_exact (byChapter_sorted fields userProperties levels)

structure Grouped (levels : List ι) (cells : List (SectionModel ι)) : Prop where
  increasing : cells.Pairwise fun first second => less first.model second.model = true
  titles : ∀ chapter, (∃ sec ∈ cells, equal sec.model chapter = true) ↔
    ∃ lvl ∈ levels, equal (fields lvl).chapter chapter = true
  items : ∀ sec ∈ cells, (sec.items.map (·.level)).Perm
    (levels.filter fun lvl => (fields lvl).isPublic && equal (fields lvl).chapter sec.model)
  completed : ∀ sec ∈ cells, ∀ cell ∈ sec.items, cell.isCompleted = true ↔
    ∃ lvlCompleted ∈ userProperties.completedLevels, equal lvlCompleted (fields cell.level).uuid = true

theorem itemsOf_levels (chapter : String) (levels : List ι) :
    ((scheme fields userProperties).itemsOf (CanonicalForm.scalars chapter) levels).map (·.level) =
      levels.filter fun lvl => (fields lvl).isPublic && equal (fields lvl).chapter chapter := by
  induction levels with
  | nil => rfl
  | cons lvl levels ih =>
    simp only [Scheme.itemsOf, Scheme.keyOf, scheme, equal] at ih ⊢
    by_cases same : CanonicalForm.scalars (fields lvl).chapter = CanonicalForm.scalars chapter
    · cases shown : (fields lvl).isPublic <;> simp [same, shown, ih]
    · simp [same, ih]

theorem item_eq_some_iff {lvl : ι} {cell : CellInfo ι} :
    (scheme fields userProperties).item lvl = some cell ↔ cell.level = lvl ∧ (fields lvl).isPublic = true ∧
      cell.isCompleted = isCompleted userProperties (fields lvl) := by
  obtain ⟨level, done⟩ := cell
  simp only [scheme]
  split
  · rename_i shown
    simp [shown, eq_comm]
  · rename_i hidden
    simp [hidden]

theorem itemsOf_completed {k : Scalars} {levels : List ι} {cell : CellInfo ι}
    (member : cell ∈ (scheme fields userProperties).itemsOf k levels) :
    cell.isCompleted = isCompleted userProperties (fields cell.level) := by
  obtain ⟨lvl, _, item⟩ := List.mem_filterMap.mp member
  split at item
  · obtain ⟨rfl, _, done⟩ := (item_eq_some_iff fields userProperties).mp item
    exact done
  · cases item

/-- The grouping does not trap, and its sections are those of the chapters of the list. -/
theorem listOfCells_grouped [ArraySort] (levels : List ι) :
    ∃ cells, (listOfCells fields userProperties levels).run [] = .ok () cells ∧
      Grouped fields userProperties levels cells := by
  have exact := byChapter_exact fields userProperties levels
  have perm := ArraySort.perm (fun levelA levelB : ι => less (fields levelA).chapter (fields levelB).chapter) levels
  refine ⟨_, run_listOfCells fields userProperties levels, ?_, fun chapter => ?_, ?_, ?_⟩
  · rw [sections, List.pairwise_map]
    exact exact.increasing.imp fun {first second} below => decide_eq_true below
  · have keys := exact.keys (CanonicalForm.scalars chapter)
    simp only [sections, List.mem_map, exists_exists_and_eq_and, equal_iff]
    exact keys.trans (exists_congr fun lvl => and_congr_left fun _ => perm.mem_iff)
  · intro sec member
    obtain ⟨group, listed, rfl⟩ := List.mem_map.mp member
    simp only [exact.items group listed]
    rw [show (scheme fields userProperties).key group.label = CanonicalForm.scalars group.label from rfl,
      itemsOf_levels]
    exact perm.filter _
  · intro sec member cell shown
    obtain ⟨group, listed, rfl⟩ := List.mem_map.mp member
    simp only [exact.items group listed] at shown
    rw [itemsOf_completed fields userProperties shown]
    simp [isCompleted]

end PublicLevelsViewModel

end ArRobotCode
