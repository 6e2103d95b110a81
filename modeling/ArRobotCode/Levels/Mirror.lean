import Mathlib.Data.List.Perm.Basic
import Mathlib.Data.List.Nodup
import ArRobotCode.Library.Triples
import ArRobotCode.Levels.Editing

namespace ArRobotCode

open Swift DocumentStore Trapping

/-- The collection holds the encoding of each level under its identifier, and nothing else. -/
structure Mirrors (entities : List DataLevel) (c : Collection Json) : Prop where
  distinct : (entities.map (·.uuid)).Nodup
  stored : ∀ l ∈ entities, c l.uuid = some l.asDictionary
  others : ∀ id, (∀ l ∈ entities, l.uuid ≠ id) → c id = none

theorem DataLevel.asDictionary_updated (l l' : DataLevel) :
    l.asDictionary.updated l'.asDictionary = l'.asDictionary := by
  funext key
  cases listed : l'.asDictionary key with
  | some value => exact Fields.updated_listed listed
  | none =>
    rw [Fields.updated_unlisted listed]
    simp only [asDictionary, Fields.ofList, List.lookup_eq_none_iff] at listed ⊢
    simpa using listed

namespace Mirrors

variable {entities rest : List DataLevel} {c : Collection Json} {l l' : DataLevel}

theorem perm (mirrors : Mirrors entities c) (same : entities.Perm rest) : Mirrors rest c where
  distinct := (same.map _).nodup_iff.mp mirrors.distinct
  stored l member := mirrors.stored l (same.mem_iff.mpr member)
  others id absent := mirrors.others id fun l member => absent l (same.mem_iff.mp member)

theorem tail_uuid_ne (mirrors : Mirrors (l :: rest) c) {other : DataLevel} (member : other ∈ rest) :
    other.uuid ≠ l.uuid := by
  have distinct := mirrors.distinct
  rw [List.map_cons, List.nodup_cons] at distinct
  intro same
  exact distinct.1 (same ▸ List.mem_map_of_mem member)

theorem add (mirrors : Mirrors rest c) (fresh : ∀ other ∈ rest, other.uuid ≠ l.uuid) :
    Mirrors (l :: rest) ((Write.setData l.uuid l.asDictionary).apply c) where
  distinct := by
    rw [List.map_cons, List.nodup_cons]
    refine ⟨fun member => ?_, mirrors.distinct⟩
    obtain ⟨other, listed, same⟩ := List.mem_map.mp member
    exact fresh other listed same
  stored other member := by
    rcases List.mem_cons.mp member with rfl | listed
    · simp [Write.apply]
    · simpa [Write.apply, fresh other listed] using mirrors.stored other listed
  others id absent := by
    have here : id ≠ l.uuid := Ne.symm (absent l List.mem_cons_self)
    simpa [Write.apply, here] using mirrors.others id fun other listed => absent other (List.mem_cons_of_mem l listed)

theorem remove (mirrors : Mirrors (l :: rest) c) : Mirrors rest ((Write.delete l.uuid).apply c) where
  distinct := (List.nodup_cons.mp mirrors.distinct).2
  stored other listed := by
    simpa [Write.apply, mirrors.tail_uuid_ne listed] using mirrors.stored other (List.mem_cons_of_mem l listed)
  others id absent := by
    by_cases here : id = l.uuid
    · simp [Write.apply, here]
    · have unlisted : ∀ other ∈ l :: rest, other.uuid ≠ id := by
        intro other member
        rcases List.mem_cons.mp member with rfl | listed
        · exact Ne.symm here
        · exact absent other listed
      simpa [Write.apply, here] using mirrors.others id unlisted

theorem replace (mirrors : Mirrors (l :: rest) c) (same : l'.uuid = l.uuid) :
    Mirrors (l' :: rest) ((Write.updateData l'.uuid l'.asDictionary).apply c) where
  distinct := by
    have distinct := mirrors.distinct
    rwa [List.map_cons, ← same, ← List.map_cons] at distinct
  stored other member := by
    rcases List.mem_cons.mp member with rfl | listed
    · simp [Write.apply, same, mirrors.stored l List.mem_cons_self, DataLevel.asDictionary_updated]
    · have different : other.uuid ≠ l'.uuid := same ▸ mirrors.tail_uuid_ne listed
      simpa [Write.apply, different] using mirrors.stored other (List.mem_cons_of_mem l listed)
  others id absent := by
    have here : id ≠ l'.uuid := Ne.symm (absent l' List.mem_cons_self)
    have unlisted : ∀ other ∈ l :: rest, other.uuid ≠ id := by
      intro other member
      rcases List.mem_cons.mp member with rfl | listed
      · exact same ▸ Ne.symm here
      · exact absent other (List.mem_cons_of_mem l' listed)
    simpa [Write.apply, here] using mirrors.others id unlisted

end Mirrors

inductive RepositoryCall where
  | add (a : DataLevel)
  | update (a : DataLevel)
  | edit (at' : Int) (level : DataLevel) (e : Edit)
  | deleteByName (name : String)
  | deleteAt (at' : Int)
deriving DecidableEq, Repr

namespace RepositoryCall

/-- An edit is made by an editor that stands on `at'` and has published `level` last. -/
def perform [CanonicalForm] : RepositoryCall → Method LevelsRepository Unit
  | add a => do
    let _ ← LevelsRepository.add a
  | update a => do
    let _ ← LevelsRepository.update a
  | edit at' level e =>
    within (fun r => { levelsRepository := r, levelAt := at', level }) (fun v _ => v.levelsRepository) e.perform
  | deleteByName name => do
    let _ ← LevelsRepository.deleteByName name
  | deleteAt at' => do
    let _ ← LevelsRepository.deleteAt at'

/-- Only the identifier of an added level has to be a new one. -/
def Fresh (r : LevelsRepository) : RepositoryCall → Prop
  | add a => ∀ l ∈ r.entities, l.uuid ≠ a.uuid
  | update _ | edit _ _ _ | deleteByName _ | deleteAt _ => True

def Edits : RepositoryCall → Prop
  | update _ | edit _ _ _ => True
  | add _ | deleteByName _ | deleteAt _ => False

def Deletes : RepositoryCall → Prop
  | deleteByName _ | deleteAt _ => True
  | add _ | update _ | edit _ _ _ => False

end RepositoryCall

namespace LevelsRepository

def publishing (r : LevelsRepository) (entities : List DataLevel) (w : Write Json) (r' : LevelsRepository) : Prop :=
  r'.entities = entities ∧ r'.entitiesSubject = r.entitiesSubject ++ [entities] ∧ r'.db = r.db ++ [w]

/-- All that a call can do to the list, the subject and the server. -/
inductive Effect (r r' : LevelsRepository) : RepositoryCall → Prop where
  | none {call : RepositoryCall} (keeps : ∀ a, call ≠ .add a) (entities : r'.entities = r.entities)
      (subject : r'.entitiesSubject = r.entitiesSubject) (db : r'.db = r.db) : Effect r r' call
  | added {a : DataLevel} (publishes : r.publishing (r.entities ++ [a]) (.setData a.uuid a.asDictionary) r') :
      Effect r r' (.add a)
  | replaced {call : RepositoryCall} {i : Nat} {l l' : DataLevel} (edits : call.Edits)
      (found : r.entities[i]? = some l) (same : l'.uuid = l.uuid)
      (publishes : r.publishing (r.entities.set i l') (.updateData l'.uuid l'.asDictionary) r') : Effect r r' call
  | removed {call : RepositoryCall} {i : Nat} {l : DataLevel} (deletes : call.Deletes)
      (found : r.entities[i]? = some l)
      (publishes : r.publishing (r.entities.eraseIdx i) (.delete l.uuid) r') : Effect r r' call

variable {r r' : LevelsRepository} {call : RepositoryCall}

theorem getElem?_of_findIdx? {xs : List DataLevel} {p : DataLevel → Bool} {i : Nat}
    (found : xs.findIdx? p = some i) : ∃ l, xs[i]? = some l ∧ p l = true := by
  obtain ⟨bound, holds, -⟩ := List.findIdx?_eq_some_iff_getElem.mp found
  exact ⟨xs[i], List.getElem?_eq_getElem bound, holds⟩

section Calls

variable [CanonicalForm]

theorem update_effect {a : DataLevel} (ran : (RepositoryCall.update a).perform.run r = .ok () r') :
    Effect r r' (.update a) := by
  cases found : r.entities.findIdx? (·.uuid = a.uuid) with
  | none =>
    simp [RepositoryCall.perform, update, -bind_pure_comp, EStateM.run_bind, found] at ran
    subst ran
    exact .none (by simp) rfl rfl rfl
  | some i =>
    obtain ⟨l, place, same⟩ := getElem?_of_findIdx? found
    simp [RepositoryCall.perform, update, onNext, syncUpdateToServer, send, -bind_pure_comp, EStateM.run_bind,
      found] at ran
    subst ran
    exact .replaced trivial place (of_decide_eq_true same).symm ⟨rfl, rfl, rfl⟩

theorem deleteByName_effect {name : String} (ran : (RepositoryCall.deleteByName name).perform.run r = .ok () r') :
    Effect r r' (.deleteByName name) := by
  cases found : r.entities.findIdx? (equal ·.name name) with
  | none =>
    simp [RepositoryCall.perform, deleteByName, -bind_pure_comp, EStateM.run_bind, found] at ran
    subst ran
    exact .none (by simp) rfl rfl rfl
  | some i =>
    obtain ⟨l, place, -⟩ := getElem?_of_findIdx? found
    have here : at? r.entities (i : Int) = some l := by rw [at?_natCast, place]
    simp [RepositoryCall.perform, deleteByName, onNext, syncDeleteToServer, send, -bind_pure_comp, EStateM.run_bind,
      found, run_subscript_of_some here] at ran
    subst ran
    exact .removed trivial place ⟨rfl, rfl, rfl⟩

theorem deleteAt_effect {at' : Int} (ran : (RepositoryCall.deleteAt at').perform.run r = .ok () r') :
    Effect r r' (.deleteAt at') := by
  cases place : at? r.entities at' with
  | none =>
    simp [RepositoryCall.perform, deleteAt, -bind_pure_comp, EStateM.run_bind, run_subscript_of_none place] at ran
  | some l =>
    simp only [RepositoryCall.perform, EStateM.run_bind, run_deleteAt place] at ran
    cases ran
    exact .removed trivial (getElem?_of_at? place) ⟨rfl, rfl, rfl⟩

theorem perform_effect {e : Edit} {v v' : LevelViewModel} (edits : call.Edits) (ran : e.perform.run v = .ok () v') :
    Effect v.levelsRepository v'.levelsRepository call := by
  have keeps : ∀ a, call ≠ .add a := by
    rintro a rfl
    exact edits
  cases found : at? v.levelsRepository.entities v.levelAt with
  | none =>
    by_cases passes : e.Skipped v.levelsRepository.madeUp ∨ e.Fits v.levelsRepository.madeUp
    · obtain ⟨n, shown, ran'⟩ := (Edit.perform_none found e).1 passes
      rw [ran'] at ran
      cases ran
      exact .none keeps rfl rfl rfl
    · rw [not_or] at passes
      obtain ⟨trap, v'', traps⟩ := (Edit.perform_none found e).2 passes.1 passes.2
      rw [traps] at ran
      cases ran
  | some l =>
    by_cases skipped : e.Skipped l
    · rw [(Edit.run_perform_some found e).1 skipped] at ran
      cases ran
      exact .none keeps rfl rfl rfl
    by_cases fits : e.Fits l
    · rw [Edit.perform_fits found skipped fits] at ran
      cases ran
      exact .replaced edits (getElem?_of_at? found) (Edit.applied_uuid l e) ⟨rfl, rfl, rfl⟩
    · obtain ⟨trap, v'', traps⟩ := Edit.perform_misfits found skipped fits
      rw [traps] at ran
      cases ran

theorem edit_effect {at' : Int} {level : DataLevel} {e : Edit}
    (ran : (RepositoryCall.edit at' level e).perform.run r = .ok () r') : Effect r r' (.edit at' level e) := by
  simp only [RepositoryCall.perform, run_within] at ran
  cases edited : e.perform.run ⟨r, at', level⟩ with
  | ok value v' =>
    simp only [edited, EStateM.Result.ok.injEq, true_and] at ran
    subst ran
    exact perform_effect (v := ⟨r, at', level⟩) trivial edited
  | error trap v' => simp [edited] at ran

theorem call_effect (ran : call.perform.run r = .ok () r') : Effect r r' call := by
  cases call with
  | add a =>
    cases ran
    exact .added ⟨rfl, rfl, rfl⟩
  | update a => exact update_effect ran
  | edit at' level e => exact edit_effect ran
  | deleteByName name => exact deleteByName_effect ran
  | deleteAt at' => exact deleteAt_effect ran

end Calls

theorem Effect.mirrors {c : Collection Json} (effect : Effect r r' call) (fresh : call.Fresh r)
    (mirrors : Mirrors r.entities c) :
    ∃ writes, r'.db = r.db ++ writes ∧ Mirrors r'.entities (c.after writes) := by
  cases effect with
  | none keeps entities subject db => exact ⟨[], by rw [db, List.append_nil], by rw [entities]; exact mirrors⟩
  | added publishes =>
    obtain ⟨entities, -, db⟩ := publishes
    refine ⟨_, db, ?_⟩
    rw [entities]
    exact (mirrors.add fresh).perm (List.perm_append_singleton _ _).symm
  | @replaced _ i l l' edits found same publishes =>
    obtain ⟨entities, -, db⟩ := publishes
    obtain ⟨bound, rfl⟩ := List.getElem?_eq_some_iff.mp found
    refine ⟨_, db, ?_⟩
    rw [entities]
    exact ((mirrors.perm (List.getElem_cons_eraseIdx_perm bound).symm).replace same).perm
      (List.set_perm_cons_eraseIdx bound l').symm
  | @removed _ i l deletes found publishes =>
    obtain ⟨entities, -, db⟩ := publishes
    obtain ⟨bound, rfl⟩ := List.getElem?_eq_some_iff.mp found
    refine ⟨_, db, ?_⟩
    rw [entities]
    exact (mirrors.perm (List.getElem_cons_eraseIdx_perm bound).symm).remove

/-- Every list that a call emits is the new one, and a call that emits none changes none. -/
def Emitting (r r' : LevelsRepository) : Prop :=
  ∃ lists, r'.entitiesSubject = r.entitiesSubject ++ lists ∧
    (lists = [] → r'.entities = r.entities) ∧ (lists ≠ [] → lists.getLast? = some r'.entities)

theorem Effect.emitting (effect : Effect r r' call) : Emitting r r' := by
  cases effect with
  | none keeps entities subject db =>
    exact ⟨[], by rw [subject, List.append_nil], fun _ => entities, fun some => absurd rfl some⟩
  | added publishes | replaced _ _ _ publishes | removed _ _ publishes =>
    obtain ⟨entities, subject, -⟩ := publishes
    exact ⟨_, subject, fun none => absurd none (by simp), fun _ => by simp [entities]⟩

theorem Emitting.trans {r'' : LevelsRepository} (first : Emitting r r') (second : Emitting r' r'') :
    Emitting r r'' := by
  obtain ⟨lists, subject, unchanged, last⟩ := first
  obtain ⟨lists', subject', unchanged', last'⟩ := second
  refine ⟨lists ++ lists', by rw [subject', subject, List.append_assoc], ?_, ?_⟩
  · intro none
    obtain ⟨none, none'⟩ := List.append_eq_nil_iff.mp none
    rw [unchanged' none', unchanged none]
  · intro some
    by_cases none' : lists' = []
    · subst none'
      rw [List.append_nil] at some ⊢
      rw [last some, unchanged' rfl]
    · rw [List.getLast?_append, last' none']
      rfl

section Runs

variable [CanonicalForm]

theorem run_mirrors {calls : List RepositoryCall} {c : Collection Json} (mirrors : Mirrors r.entities c)
    (fresh : Along RepositoryCall.perform (fun r call => call.Fresh r) calls r)
    (ran : (runAll RepositoryCall.perform calls).run r = .ok () r') :
    ∃ writes, r'.db = r.db ++ writes ∧ Mirrors r'.entities (c.after writes) := by
  induction calls generalizing r c with
  | nil =>
    cases ran
    exact ⟨[], (List.append_nil _).symm, mirrors⟩
  | cons call calls ih =>
    obtain ⟨middle, first, rest⟩ := runAll_cons_ok.mp ran
    obtain ⟨writes, db, between⟩ := (call_effect first).mirrors fresh.1 mirrors
    obtain ⟨later, db', last⟩ := ih between (fresh.tail first) rest
    refine ⟨writes ++ later, by rw [db', db, List.append_assoc], ?_⟩
    rw [Collection.after_append]
    exact last

theorem run_emitting {calls : List RepositoryCall} (ran : (runAll RepositoryCall.perform calls).run r = .ok () r') :
    Emitting r r' := by
  induction calls generalizing r with
  | nil =>
    cases ran
    exact ⟨[], (List.append_nil _).symm, fun _ => rfl, fun some => absurd rfl some⟩
  | cons call calls ih =>
    obtain ⟨middle, first, rest⟩ := runAll_cons_ok.mp ran
    exact (call_effect first).emitting.trans (ih rest)

theorem levels_mirrored {r r' : LevelsRepository} {calls : List RepositoryCall} {c : Collection Json}
    (mirrors : Mirrors r.entities c) (fresh : Along RepositoryCall.perform (fun r call => call.Fresh r) calls r)
    (ran : (runAll RepositoryCall.perform calls).run r = .ok () r') :
    ∃ writes lists, r'.db = r.db ++ writes ∧ Mirrors r'.entities (c.after writes) ∧
      r'.entitiesSubject = r.entitiesSubject ++ lists ∧ (lists = [] → r'.entities = r.entities) ∧
      (lists ≠ [] ∨ r.entitiesSubject.getLast? = some r.entities →
        r'.entitiesSubject.getLast? = some r'.entities) := by
  obtain ⟨writes, db, mirrored⟩ := run_mirrors mirrors fresh ran
  obtain ⟨lists, subject, unchanged, last⟩ := run_emitting ran
  refine ⟨writes, lists, db, mirrored, subject, unchanged, fun shown => ?_⟩
  by_cases quiet : lists = []
  · rw [subject, quiet, List.append_nil, unchanged quiet]
    exact shown.resolve_left fun loud => loud quiet
  · rw [subject, List.getLast?_append, last quiet]
    rfl

end Runs

local instance mirroredTexts : CanonicalForm := .composed

def addRenameDelete : List RepositoryCall :=
  [.add (.new5x5 "1" "Level" "me"), .edit 0 (.new5x5 "1" "Level" "me") (.setName "First"), .deleteByName "First"]

theorem levels_mirrored_add_rename_delete :
    ∃ writes lists, (final (runAll RepositoryCall.perform addRenameDelete) {}).db = [] ++ writes ∧
      Mirrors (final (runAll RepositoryCall.perform addRenameDelete) {}).entities
        (Collection.after (fun _ => none) writes) ∧
      (final (runAll RepositoryCall.perform addRenameDelete) {}).entitiesSubject = [] ++ lists ∧
      (lists = [] → (final (runAll RepositoryCall.perform addRenameDelete) {}).entities = []) ∧
      (lists ≠ [] ∨ (none : Option (List DataLevel)) = some [] →
        (final (runAll RepositoryCall.perform addRenameDelete) {}).entitiesSubject.getLast? =
          some (final (runAll RepositoryCall.perform addRenameDelete) {}).entities) := by
  have empty : Mirrors ({} : LevelsRepository).entities fun _ => none :=
    ⟨List.nodup_nil, fun l member => absurd member List.not_mem_nil, fun _ _ => rfl⟩
  have fresh : Along RepositoryCall.perform (fun r call => call.Fresh r) addRenameDelete {} :=
    .cons_final (fun l member => absurd member List.not_mem_nil) (.cons_final trivial (.cons_final trivial trivial))
  exact levels_mirrored empty fresh (run_eq_of_trapOf_eq_none (by decide +kernel))

theorem quiet_call_emits_nothing :
    Mirrors ({} : LevelsRepository).entities (fun _ => none) ∧
      Along RepositoryCall.perform (fun r call => call.Fresh r) [.deleteByName "Level"] {} ∧
      (runAll RepositoryCall.perform [.deleteByName "Level"]).run {} = .ok () {} ∧
      ({} : LevelsRepository).entitiesSubject.getLast? ≠ some ({} : LevelsRepository).entities := by
  refine ⟨⟨List.nodup_nil, fun l member => absurd member List.not_mem_nil, fun _ _ => rfl⟩, ?_, rfl, by decide⟩
  exact .cons_final trivial trivial

end LevelsRepository

end ArRobotCode
