import Mathlib.Data.List.Perm.Basic
import Mathlib.Data.List.Nodup
import ArRobotCode.Levels.Repository

namespace ArRobotCode

open Swift DocumentStore

/-- What the screens ask of `UserRepository`: `getUser()?.uid` and `getUserProperties()?.Role`. -/
structure CurrentUser where
  uid : Option String
  role : Option String
deriving DecidableEq, Repr

namespace LevelsListViewModel

/-- The test of the filter: the user is only unwrapped when the role does not decide. -/
def shows (user : CurrentUser) (level : DataLevel) : Except Trap Bool :=
  if user.role = some "admin" then .ok true
  else match user.uid with
    | some uid => .ok (uid == level.byUserID)
    | none => .error .unexpectedNil

def filteredLevels (user : CurrentUser) : List DataLevel → Except Trap (List DataLevel)
  | [] => .ok []
  | level :: data => do
    let shown ← shows user level
    let rest ← filteredLevels user data
    return if shown then level :: rest else rest

def deleteItem (at' : Int) : Method LevelsRepository Unit := do
  let _ ← LevelsRepository.deleteAt at'

end LevelsListViewModel

def itemSelected (row : Int) : Method LevelsRepository Int := do
  -- The row counts the levels that are shown, the position all of them.
  let lvl ← LevelsRepository.getLevel row
  LevelsRepository.getAt lvl.uuid

def CurrentUser.Sees (user : CurrentUser) (l : DataLevel) : Prop :=
  user.role = some "admin" ∨ user.uid = some l.byUserID

instance (user : CurrentUser) (l : DataLevel) : Decidable (user.Sees l) := inferInstanceAs (Decidable (_ ∨ _))

namespace LevelsListViewModel

theorem shows_eq {user : CurrentUser} {level : DataLevel} {shown : Bool} (asked : shows user level = .ok shown) :
    shown = decide (user.Sees level) := by
  unfold shows at asked
  split at asked
  · rename_i admin
    cases asked
    simp [CurrentUser.Sees, admin]
  · rename_i notAdmin
    split at asked
    · rename_i uid signedIn
      cases asked
      simp [CurrentUser.Sees, notAdmin, signedIn, Bool.beq_eq_decide_eq]
    · cases asked

theorem filteredLevels_eq_filter {user : CurrentUser} {data rows : List DataLevel}
    (emitted : filteredLevels user data = .ok rows) : rows = data.filter (user.Sees ·) := by
  induction data generalizing rows with
  | nil =>
    cases emitted
    rfl
  | cons level data ih =>
    simp only [filteredLevels] at emitted
    cases asked : shows user level with
    | error trap => simp [asked, Bind.bind, Except.bind] at emitted
    | ok shown =>
      cases ran : filteredLevels user data with
      | error trap => simp [asked, ran, Bind.bind, Except.bind] at emitted
      | ok rest =>
        simp only [asked, ran, Bind.bind, Except.bind, pure, Except.pure, Except.ok.injEq] at emitted
        rw [← emitted, ih ran, shows_eq asked]
        by_cases sees : user.Sees level <;> simp [sees]

end LevelsListViewModel

namespace LevelsRepository

theorem at?_getAtFrom (id : String) (entities : List DataLevel) (n : Nat) (earlier : List DataLevel)
    (length : earlier.length = n) (others : ∀ l ∈ earlier, l.uuid ≠ id) :
    at? (earlier ++ entities) (getAtFrom id n entities) = entities.find? (·.uuid = id) := by
  induction entities generalizing n earlier with
  | nil => simp [getAtFrom, at?]
  | cons entity entities ih =>
    by_cases here : entity.uuid = id
    · simp [getAtFrom, here, ← length]
    · have rest := ih (n + 1) (earlier ++ [entity]) (by simp [length]) (by
        intro l member
        rcases List.mem_append.mp member with old | new
        · exact others l old
        · rwa [List.mem_singleton.mp new])
      simpa [getAtFrom, here] using rest

theorem run_getAt (id : String) (r : LevelsRepository) :
    ∃ at', (getAt id).run r = .ok at' r ∧ at? r.entities at' = r.entities.find? (·.uuid = id) :=
  ⟨_, rfl, at?_getAtFrom id r.entities 0 [] rfl (by simp)⟩

end LevelsRepository

namespace LevelsListViewModel

/-- Deleting a row takes one entry that is the displayed level from the list and its document from the server;
    selecting the row opens the displayed level; and the user may do both. -/
structure ActsOnRow (user : CurrentUser) (repo : LevelsRepository) (row : Nat) (displayed : DataLevel) : Prop where
  deletes : ∃ repo', (deleteItem row).run repo = .ok () repo' ∧
    (∃ q, repo.entities[q]? = some displayed ∧ repo'.entities = repo.entities.eraseIdx q) ∧
    ∃ writes, repo'.db = repo.db ++ writes ∧
      ∀ (c : Collection Json) (id : String), c.after writes id = if id = displayed.uuid then none else c id
  opens : ∃ repo' at', (itemSelected row).run repo = .ok at' repo' ∧ at? repo'.entities at' = some displayed
  allowed : user.Sees displayed

theorem run_deleteItem {repo : LevelsRepository} {row : Nat} {l : DataLevel} (found : repo.entities[row]? = some l) :
    (deleteItem row).run repo = .ok () { repo with
      entities := repo.entities.eraseIdx row
      entitiesSubject := repo.entitiesSubject ++ [repo.entities.eraseIdx row]
      db := repo.db ++ [.delete l.uuid] } := by
  have place : at? repo.entities (row : Int) = some l := (at?_natCast _ _).trans found
  simp only [deleteItem, EStateM.run_bind, LevelsRepository.run_deleteAt place, Int.toNat_natCast]
  rfl

theorem run_itemSelected {repo : LevelsRepository} {row : Nat} {l : DataLevel}
    (found : repo.entities[row]? = some l) :
    ∃ at', (itemSelected row).run repo = .ok at' repo ∧
      at? repo.entities at' = repo.entities.find? (·.uuid = l.uuid) := by
  obtain ⟨at', ran, same⟩ := LevelsRepository.run_getAt l.uuid repo
  refine ⟨at', ?_, same⟩
  simp only [itemSelected, EStateM.run_bind, LevelsRepository.run_getLevel_some ((at?_natCast _ _).trans found), ran]

theorem eq_of_eraseIdx_eq {xs : List DataLevel} {i j : Nat} {a b : DataLevel} (first : xs[i]? = some a)
    (second : xs[j]? = some b) (same : xs.eraseIdx i = xs.eraseIdx j) : a = b := by
  obtain ⟨iBound, rfl⟩ := List.getElem?_eq_some_iff.mp first
  obtain ⟨jBound, rfl⟩ := List.getElem?_eq_some_iff.mp second
  have perm := (List.getElem_cons_eraseIdx_perm iBound).trans (List.getElem_cons_eraseIdx_perm jBound).symm
  rw [same] at perm
  by_contra differ
  have count := perm.count_eq xs[i]
  simp [Ne.symm differ] at count

def Matches (repo : LevelsRepository) (row : Nat) (displayed : DataLevel) : Prop :=
  repo.entities[row]? = some displayed ∧ repo.entities.find? (·.uuid = displayed.uuid) = some displayed

theorem actsOnRow_iff_matches {user : CurrentUser} {repo : LevelsRepository} {rows : List DataLevel}
    (emitted : filteredLevels user repo.entities = .ok rows) {row : Nat} {displayed : DataLevel}
    (shown : rows[row]? = some displayed) :
    ActsOnRow user repo row displayed ↔ Matches repo row displayed := by
  have filtered := filteredLevels_eq_filter emitted
  have bound : row < repo.entities.length := by
    have rowBound := (List.getElem?_eq_some_iff.mp shown).1
    have shorter := List.length_filter_le (fun l => decide (user.Sees l)) repo.entities
    rw [filtered] at rowBound
    omega
  have sees : user.Sees displayed := by
    have member := List.mem_of_getElem? shown
    rw [filtered] at member
    simpa using (List.mem_filter.mp member).2
  have found : repo.entities[row]? = some repo.entities[row] := List.getElem?_eq_getElem bound
  have deleted := run_deleteItem found
  obtain ⟨at', selected, position⟩ := run_itemSelected found
  constructor
  · intro given
    rcases given with ⟨⟨repo', ran, ⟨q, place, entities⟩, _⟩, ⟨repo'', at'', ran', opened⟩, _⟩
    rw [deleted] at ran
    rw [selected] at ran'
    cases ran
    cases ran'
    have same := eq_of_eraseIdx_eq found place entities
    rw [position, same] at opened
    exact ⟨by rw [found, same], opened⟩
  · intro given
    rcases given with ⟨place, first⟩
    have same : repo.entities[row] = displayed := Option.some.inj (found.symm.trans place)
    rw [same] at deleted position
    refine ⟨⟨_, deleted, ⟨row, place, rfl⟩, [.delete displayed.uuid], rfl, fun c id => rfl⟩,
      ⟨repo, at', selected, position.trans first⟩, sees⟩

theorem position_of_row (user : CurrentUser) {entities : List DataLevel} {row : Nat} {displayed : DataLevel}
    (shown : (entities.filter (user.Sees ·))[row]? = some displayed) :
    ∃ q, entities[q]? = some displayed ∧ row ≤ q ∧
      (q = row ↔ ∀ i l, i ≤ row → entities[i]? = some l → user.Sees l) := by
  induction entities generalizing row with
  | nil => simp at shown
  | cons entity entities ih =>
    by_cases sees : user.Sees entity
    · cases row with
      | zero =>
        simp only [sees, decide_true, List.filter_cons_of_pos, List.getElem?_cons_zero] at shown
        refine ⟨0, shown, Nat.le_refl 0, fun _ i l least found => ?_, fun _ => rfl⟩
        rw [Nat.le_zero.mp least, List.getElem?_cons_zero] at found
        exact Option.some.inj found ▸ sees
      | succ row =>
        simp only [sees, decide_true, List.filter_cons_of_pos, List.getElem?_cons_succ] at shown
        obtain ⟨q, found, least, prefixShown⟩ := ih shown
        refine ⟨q + 1, found, by omega, fun same i l below found' => ?_, fun all => ?_⟩
        · cases i with
          | zero => exact Option.some.inj found' ▸ sees
          | succ i => exact prefixShown.mp (by omega) i l (by omega) found'
        · have same := prefixShown.mpr fun i l below found' => all (i + 1) l (by omega) found'
          omega
    · simp only [sees, decide_false, Bool.false_eq_true, not_false_eq_true, List.filter_cons_of_neg] at shown
      obtain ⟨q, found, least, _⟩ := ih shown
      exact ⟨q + 1, found, by omega, fun same => by omega, fun all => absurd (all 0 entity (by omega) rfl) sees⟩

theorem row_is_position_iff {user : CurrentUser} {entities : List DataLevel}
    (distinct : (entities.map (·.uuid)).Nodup) {row : Nat} {displayed : DataLevel}
    (shown : (entities.filter (user.Sees ·))[row]? = some displayed) :
    entities[row]? = some displayed ↔ ∀ i l, i ≤ row → entities[i]? = some l → user.Sees l := by
  obtain ⟨q, found, least, prefixShown⟩ := position_of_row user shown
  rw [← prefixShown]
  constructor
  · intro here
    have bound : q < (entities.map (·.uuid)).length := by
      rw [List.length_map]
      exact (List.getElem?_eq_some_iff.mp found).1
    exact (List.getElem?_inj bound distinct).mp (by simp [here, found])
  · intro same
    subst same
    exact found

theorem matches_iff_of_distinct {repo : LevelsRepository} (distinct : (repo.entities.map (·.uuid)).Nodup) {row : Nat}
    {displayed : DataLevel} : Matches repo row displayed ↔ repo.entities[row]? = some displayed := by
  refine ⟨And.left, fun here => ⟨here, ?_⟩⟩
  cases found : repo.entities.find? (·.uuid = displayed.uuid) with
  | none =>
    have other := List.find?_eq_none.mp found displayed (List.mem_of_getElem? here)
    simp at other
  | some first =>
    obtain ⟨q, place⟩ := List.mem_iff_getElem?.mp (List.mem_of_find?_eq_some found)
    have same : first.uuid = displayed.uuid := by simpa using List.find?_some found
    have bound : q < (repo.entities.map (·.uuid)).length := by
      rw [List.length_map]
      exact (List.getElem?_eq_some_iff.mp place).1
    have equal : q = row := (List.getElem?_inj bound distinct).mp (by simp [here, place, same])
    rw [equal, here] at place
    exact place.symm

/-- The table acts on the level of a row exactly when the row's number is the level's position in the repository;
    among levels with different identifiers, exactly when no level up to that position is hidden. -/
theorem acts_on_row_iff {user : CurrentUser} {repo : LevelsRepository} {rows : List DataLevel}
    (emitted : filteredLevels user repo.entities = .ok rows) {row : Nat} {displayed : DataLevel}
    (shown : rows[row]? = some displayed) :
    (ActsOnRow user repo row displayed ↔ Matches repo row displayed) ∧
      ((repo.entities.map (·.uuid)).Nodup → (ActsOnRow user repo row displayed ↔
        ∀ i l, i ≤ row → repo.entities[i]? = some l → user.Sees l)) := by
  have acts := actsOnRow_iff_matches emitted shown
  refine ⟨acts, fun distinct => ?_⟩
  rw [acts, matches_iff_of_distinct distinct]
  rw [filteredLevels_eq_filter emitted] at shown
  exact row_is_position_iff distinct shown

def pupil : CurrentUser := ⟨some "me", some "user"⟩

def mine : DataLevel := { uuid := "mine", byUserID := "me" }

def theirs : DataLevel := { uuid := "theirs", byUserID := "them" }

def ownFirst : LevelsRepository := { entities := [mine, theirs] }

def ownLast : LevelsRepository := { entities := [theirs, mine] }

theorem acts_on_row_own_first : ActsOnRow pupil ownFirst 0 mine :=
  (acts_on_row_iff (show filteredLevels pupil ownFirst.entities = .ok [mine] from rfl) rfl).1.mpr ⟨rfl, rfl⟩

/-- The only row shows the pupil's own level, but it deletes and opens the hidden level before it. -/
theorem acts_on_hidden_level :
    filteredLevels pupil ownLast.entities = .ok [mine] ∧ ¬ ActsOnRow pupil ownLast 0 mine := by
  have emitted : filteredLevels pupil ownLast.entities = .ok [mine] := rfl
  refine ⟨emitted, fun acts => ?_⟩
  obtain ⟨place, _⟩ := (actsOnRow_iff_matches emitted rfl).mp acts
  exact absurd place (by decide)

end LevelsListViewModel

end ArRobotCode
