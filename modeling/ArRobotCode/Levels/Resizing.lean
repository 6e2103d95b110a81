import ArRobotCode.Library.Loops
import ArRobotCode.Levels.WellFormed

namespace ArRobotCode

open Swift Trapping

namespace DataLevel

def tooManyTiles : Method DataLevel Bool := do
  let l ← get
  return decide ((l.tiles.length : Int) > (← checked (l.width * l.height)))

def tooFewTiles : Method DataLevel Bool := do
  let l ← get
  return decide ((l.tiles.length : Int) < (← checked (l.width * l.height)))

def removeLastTile : Method DataLevel Unit := do
  if (← get).tiles = [] then throw .removeFromEmpty
  modify fun l => { l with tiles := l.tiles.dropLast }

def appendTile : Method DataLevel Unit := modify fun l => { l with tiles := l.tiles ++ [{}] }

def freed (l : DataLevel) : DataLevel := { l with tiles := l.tiles.map fun _ => ⟨TypeOfTile.free.rawValue⟩ }

/-- `reAssignTiles` as its text has it: two loops, each of which multiplies the sides again for every test. -/
structure ReAssigned (l l' : DataLevel) : Prop where
  loops : ∃ cut, LoopEnds tooManyTiles removeLastTile l.freed cut ∧ LoopEnds tooFewTiles appendTile cut l'

variable {l l' : DataLevel}

def withTiles (l : DataLevel) (n : Nat) : DataLevel := { l with tiles := List.replicate n {} }

theorem freed_eq (l : DataLevel) : l.freed = l.withTiles l.tiles.length := by
  unfold freed withTiles
  rw [tiles_freed]

theorem run_size (count : TileCount (l.width * l.height)) (s : DataLevel) :
    (checked (l.width * l.height)).run s = .ok (l.width * l.height) s := by
  obtain ⟨nonneg, fits⟩ := count
  have low : intMin ≤ l.width * l.height := by
    have := show intMin ≤ 0 by decide
    omega
  exact run_checked_of_fits low fits s

theorem run_tooManyTiles (count : TileCount (l.width * l.height)) (n : Nat) :
    tooManyTiles.run (l.withTiles n) = .ok (decide ((n : Int) > l.width * l.height)) (l.withTiles n) := by
  simp only [tooManyTiles, EStateM.run_bind, EStateM.run_get, withTiles, List.length_replicate, run_size count]
  rfl

theorem run_tooFewTiles (count : TileCount (l.width * l.height)) (n : Nat) :
    tooFewTiles.run (l.withTiles n) = .ok (decide ((n : Int) < l.width * l.height)) (l.withTiles n) := by
  simp only [tooFewTiles, EStateM.run_bind, EStateM.run_get, withTiles, List.length_replicate, run_size count]
  rfl

theorem state_of_tooManyTiles {asked : Bool} (ran : tooManyTiles.run l = .ok asked l') :
    l' = l ∧ (intMin ≤ l.width * l.height ∧ l.width * l.height ≤ intMax) ∧
      asked = decide ((l.tiles.length : Int) > l.width * l.height) := by
  by_cases fits : intMin ≤ l.width * l.height ∧ l.width * l.height ≤ intMax
  · simp only [tooManyTiles, EStateM.run_bind, EStateM.run_get, run_checked_of_fits fits.1 fits.2] at ran
    cases ran
    exact ⟨rfl, fits, rfl⟩
  · simp only [tooManyTiles, EStateM.run_bind, EStateM.run_get, run_checked_of_overflow fits] at ran
    cases ran

theorem run_removeLastTile (l : DataLevel) (n : Nat) :
    removeLastTile.run (l.withTiles (n + 1)) = .ok () (l.withTiles n) := by
  simp [removeLastTile, -bind_pure_comp, EStateM.run_bind, withTiles]

theorem run_appendTile (l : DataLevel) (n : Nat) : appendTile.run (l.withTiles n) = .ok () (l.withTiles (n + 1)) := by
  simp [appendTile, withTiles, List.replicate_succ']

theorem removing_ends (count : TileCount (l.width * l.height)) (n : Nat) :
    ∃ m : Nat, LoopEnds tooManyTiles removeLastTile (l.withTiles n) (l.withTiles m) ∧
      (m : Int) ≤ l.width * l.height := by
  have nonneg := count.1
  have ended := LoopEnds.of_variant tooManyTiles removeLastTile (s := l.withTiles n) (fun s => ∃ m, s = l.withTiles m)
    (fun s => decide ((s.tiles.length : Int) > l.width * l.height)) (fun s => s.tiles.length) ?_ ?_ ⟨n, rfl⟩
  · obtain ⟨_, ends, ⟨m, rfl⟩, stopped⟩ := ended
    refine ⟨m, ends, ?_⟩
    simpa [withTiles] using stopped
  · intro s kept
    obtain ⟨m, rfl⟩ := kept
    rw [run_tooManyTiles count]
    simp [withTiles]
  · intro s kept more
    obtain ⟨m, rfl⟩ := kept
    simp only [withTiles, List.length_replicate, decide_eq_true_eq] at more
    cases m with
    | zero => omega
    | succ m =>
      refine ⟨l.withTiles m, run_removeLastTile l m, ⟨m, rfl⟩, ?_⟩
      simp [withTiles]

theorem appending_ends (count : TileCount (l.width * l.height)) {n : Nat} (below : (n : Int) ≤ l.width * l.height) :
    LoopEnds tooFewTiles appendTile (l.withTiles n) (l.withTiles (l.width * l.height).toNat) := by
  have ended := LoopEnds.of_variant tooFewTiles appendTile (s := l.withTiles n)
    (fun s => ∃ m : Nat, s = l.withTiles m ∧ (m : Int) ≤ l.width * l.height)
    (fun s => decide ((s.tiles.length : Int) < l.width * l.height))
    (fun s => (l.width * l.height).toNat - s.tiles.length) ?_ ?_ ⟨n, rfl, below⟩
  · obtain ⟨_, ends, ⟨m, rfl, most⟩, stopped⟩ := ended
    simp only [withTiles, List.length_replicate, decide_eq_false_iff_not] at stopped
    have same : (l.width * l.height).toNat = m := by omega
    rw [same]
    exact ends
  · intro s kept
    obtain ⟨m, rfl, _⟩ := kept
    rw [run_tooFewTiles count]
    simp [withTiles]
  · intro s kept more
    obtain ⟨m, rfl, _⟩ := kept
    simp only [withTiles, List.length_replicate, decide_eq_true_eq] at more
    refine ⟨l.withTiles (m + 1), run_appendTile l m, ⟨m + 1, rfl, by omega⟩, ?_⟩
    simp only [withTiles, List.length_replicate]
    omega

theorem reAssigned_of_count (count : TileCount (l.width * l.height)) :
    ReAssigned l (l.withTiles (l.width * l.height).toNat) := by
  obtain ⟨m, cut, below⟩ := removing_ends count l.tiles.length
  refine ⟨l.withTiles m, ?_, appending_ends count below⟩
  rw [freed_eq]
  exact cut

theorem fits_of_removing {n : Nat} (ends : LoopEnds tooManyTiles removeLastTile (l.withTiles n) l') :
    intMin ≤ l.width * l.height ∧ l.width * l.height ≤ intMax := by
  cases ends with
  | stop fails => exact (state_of_tooManyTiles fails).2.1
  | again holds _ _ => exact (state_of_tooManyTiles holds).2.1

theorem not_removing_ends (negative : l.width * l.height < 0) {n : Nat} :
    ¬ LoopEnds tooManyTiles removeLastTile (l.withTiles n) l' := by
  intro ends
  generalize started : l.withTiles n = s at ends
  induction ends generalizing n with
  | stop fails =>
    subst started
    have stopped := (state_of_tooManyTiles fails).2.2.symm
    simp only [withTiles, List.length_replicate, decide_eq_false_iff_not] at stopped
    omega
  | again holds round _ ih =>
    subst started
    obtain ⟨rfl, _, _⟩ := state_of_tooManyTiles holds
    cases n with
    | zero => simp [removeLastTile, -bind_pure_comp, EStateM.run_bind, withTiles] at round
    | succ n =>
      rw [run_removeLastTile] at round
      cases round
      exact ih rfl

/-- The translation by recursion ends where the two loops do, and traps where one of them does. -/
theorem run_reAssignTiles_iff : reAssignTiles.run l = .ok () l' ↔ ReAssigned l l' := by
  by_cases count : TileCount (l.width * l.height)
  · have assigned := reAssigned_of_count count
    rw [run_reAssignTiles count]
    constructor
    · intro ran
      cases ran
      exact assigned
    · intro ended
      obtain ⟨cut, removed, appended⟩ := ended.loops
      obtain ⟨cut', removed', appended'⟩ := assigned.loops
      have sameCut := removed.unique removed'
      rw [sameCut] at appended
      rw [appended.unique appended']
      rfl
  · constructor
    · intro ran
      obtain ⟨trap, l'', traps⟩ := reAssignTiles_traps count
      rw [ran] at traps
      cases traps
    · intro ended
      obtain ⟨cut, removed, _⟩ := ended.loops
      rw [freed_eq] at removed
      have fits := fits_of_removing removed
      have negative : l.width * l.height < 0 := by
        simp only [TileCount] at count
        omega
      exact (not_removing_ends negative removed).elim

end DataLevel

end ArRobotCode
