import ArRobotCode.Server.Requests

namespace ArRobotCode.Server

open Programs CouchBaseRepository

inductive LevelCall where
  | request (asked : Request)
  | getLevelByName (levelName : String)
deriving DecidableEq, Repr

/-- The purpose of the store: one level, or none, for each name. -/
abbrev LevelMap := String → Option Level

def Bucket.levels (b : Bucket) : LevelMap := fun name => b.lookup name

namespace LevelCall

def program : LevelCall → Program BucketOp Reply (Level × Option String)
  | request asked => do
    let err ← asked.program
    return ({}, err)
  | getLevelByName levelName => CouchBaseRepository.getLevelByName levelName

def content : LevelCall → Option Level
  | request (.addLevel level) | request (.updateLevel _ level) => some level
  | request (.deleteLevel _) | getLevelByName _ => none

def spec (m : LevelMap) : LevelCall → Option (Level × LevelMap)
  | request (.addLevel level) =>
    if m level.name = none then some ({}, Function.update m level.name (some level)) else none
  | request (.updateLevel levelName newlevel) =>
    if m levelName ≠ none ∧ (newlevel.name = levelName ∨ m newlevel.name = none) then
      some ({}, Function.update (Function.update m levelName none) newlevel.name (some newlevel))
    else none
  | request (.deleteLevel levelName) =>
    if m levelName ≠ none then some ({}, Function.update m levelName none) else none
  | getLevelByName levelName => (m levelName).map fun level => (level, m)

variable {m n : LevelMap} {answer : Level}

theorem spec_addLevel {level : Level} : (request (.addLevel level)).spec m = some (answer, n) ↔
    m level.name = none ∧ answer = {} ∧ n = Function.update m level.name (some level) := by
  simp [spec, eq_comm]

theorem spec_updateLevel {levelName : String} {newlevel : Level} :
    (request (.updateLevel levelName newlevel)).spec m = some (answer, n) ↔
      (m levelName ≠ none ∧ (newlevel.name = levelName ∨ m newlevel.name = none)) ∧ answer = {} ∧
        n = Function.update (Function.update m levelName none) newlevel.name (some newlevel) := by
  simp only [spec, Option.ite_none_right_eq_some, Option.some.injEq, Prod.mk.injEq, @eq_comm _ answer, @eq_comm _ n]

theorem spec_deleteLevel {levelName : String} : (request (.deleteLevel levelName)).spec m = some (answer, n) ↔
    m levelName ≠ none ∧ answer = {} ∧ n = Function.update m levelName none := by
  simp only [spec, Option.ite_none_right_eq_some, Option.some.injEq, Prod.mk.injEq, @eq_comm _ answer, @eq_comm _ n]

theorem spec_getLevelByName {levelName : String} : (getLevelByName levelName).spec m = some (answer, n) ↔
    m levelName = some answer ∧ n = m := by
  cases found : m levelName <;> simp [spec, found, eq_comm]

end LevelCall

section Refinement

variable {b : Bucket} {key name : String} {level : Level}

theorem Bucket.levels_eq_none : b.levels key = none ↔ key ∉ b := Finmap.lookup_eq_none

theorem Bucket.levels_insert : Bucket.levels (b.insert key level) = Function.update b.levels key (some level) := by
  funext other
  by_cases same : other = key
  · subst same
    simp [levels]
  · simp [levels, same]

theorem Bucket.levels_erase : Bucket.levels (b.erase key) = Function.update b.levels key none := by
  funext other
  by_cases same : other = key
  · subst same
    simp [levels]
  · simp [levels, same]

end Refinement

namespace LevelCall

variable (gocb : Gocb) (b : Bucket)

/-- The call answers and acts as the map prescribes; refused, it fails and changes nothing. -/
def Implements (call : LevelCall) : Prop :=
  match call.spec b.levels with
  | some (level, m) => (call.program.run gocb.serve b).1 = (level, none) ∧
      Bucket.levels (call.program.run gocb.serve b).2 = m
  | none => (call.program.run gocb.serve b).1.2 ≠ none ∧ (call.program.run gocb.serve b).2 = b

theorem run_request (asked : Request) : (request asked).program.run gocb.serve b =
    (({}, (asked.program.run gocb.serve b).1), (asked.program.run gocb.serve b).2) := by
  simp only [program, Program.run_bind, Program.pure_eq_done, Program.run_done]

theorem addLevel_implements (level : Level) : (request (.addLevel level)).Implements gocb b := by
  unfold Implements
  rw [run_request]
  simp only [Request.program, addLevel_eq, Program.run_call, Gocb.serve_createPrimaryIndex_bucket, insertLevel,
    Program.run_done, spec, Bucket.levels_eq_none]
  by_cases taken : level.name ∈ b
  · simp [taken, Gocb.serve]
  · simp [taken, Gocb.serve, Bucket.levels_insert]

theorem deleteLevel_implements (levelName : String) : (request (.deleteLevel levelName)).Implements gocb b := by
  unfold Implements
  rw [run_request]
  simp only [Request.program, deleteLevel_eq, Program.run_call, Program.run_done, spec, ne_eq, Bucket.levels_eq_none]
  by_cases found : levelName ∈ b
  · simp [found, Gocb.serve, Bucket.levels_erase]
  · simp [found, Gocb.serve]

theorem getLevelByName_implements (levelName : String) : (getLevelByName levelName).Implements gocb b := by
  unfold Implements
  cases found : b.lookup levelName with
  | none => simp [program, CouchBaseRepository.getLevelByName, spec, Bucket.levels, Gocb.serve, found]
  | some level => simp [program, CouchBaseRepository.getLevelByName, spec, Bucket.levels, Gocb.serve, found]

theorem replaceLevel_implements {levelName : String} {newlevel : Level} (same : levelName = newlevel.name) :
    (request (.updateLevel levelName newlevel)).Implements gocb b := by
  unfold Implements
  rw [run_request]
  simp only [Request.program, updateLevel_same same, Program.run_call, Program.run_done, spec, ne_eq,
    Bucket.levels_eq_none]
  subst same
  by_cases found : newlevel.name ∈ b
  · simp [found, Gocb.serve, Bucket.levels_insert]
  · simp [found, Gocb.serve]

theorem renameLevel_implements {levelName : String} {newlevel : Level} (renames : levelName ≠ newlevel.name) :
    (request (.updateLevel levelName newlevel)).Implements gocb b := by
  unfold Implements
  rw [run_request]
  simp only [Request.program, spec, ne_eq, Bucket.levels_eq_none, not_not, renames.symm, false_or]
  by_cases refused : levelName ∉ b ∨ newlevel.name ∈ b
  · obtain ⟨failed, unchanged⟩ := run_rename_refused gocb renames refused
    have refuses : ¬ (levelName ∈ b ∧ newlevel.name ∉ b) := by tauto
    simp only [refuses, if_false]
    exact ⟨failed, unchanged⟩
  · rw [not_or, not_not] at refused
    simp [refused, run_rename gocb renames refused.1 refused.2, Bucket.levels_insert, Bucket.levels_erase]

theorem implements (call : LevelCall) : call.Implements gocb b := by
  rcases call with (level | ⟨levelName, newlevel⟩ | levelName) | levelName
  · exact addLevel_implements gocb b level
  · by_cases same : levelName = newlevel.name
    · exact replaceLevel_implements gocb b same
    · exact renameLevel_implements gocb b same
  · exact deleteLevel_implements gocb b levelName
  · exact getLevelByName_implements gocb b levelName

def Succeeds (call : LevelCall) : Prop := (call.program.run gocb.serve b).1.2 = none

def after (call : LevelCall) : Bucket := (call.program.run gocb.serve b).2

variable {gocb b} {call : LevelCall}

theorem succeeds_iff : call.Succeeds gocb b ↔ call.spec b.levels ≠ none := by
  have implemented := implements gocb b call
  unfold Implements at implemented
  unfold Succeeds
  cases prescribed : call.spec b.levels with
  | none =>
    rw [prescribed] at implemented
    simp [implemented.1]
  | some result =>
    rw [prescribed] at implemented
    simp [implemented.1]

theorem after_of_refused (refused : ¬ call.Succeeds gocb b) : call.after gocb b = b := by
  have implemented := implements gocb b call
  unfold Implements at implemented
  rw [succeeds_iff, ne_eq, not_not] at refused
  rw [refused] at implemented
  exact implemented.2

variable (gocb) in
theorem run_of_spec {level : Level} {m : LevelMap} (prescribed : call.spec b.levels = some (level, m)) :
    (call.program.run gocb.serve b).1 = (level, none) ∧ Bucket.levels (call.after gocb b) = m := by
  have implemented := implements gocb b call
  unfold Implements at implemented
  rw [prescribed] at implemented
  exact implemented

end LevelCall

abbrev History := List (LevelCall × (Level × Option String))

namespace History

/-- The content of the last call that was answered without an error and wrote a level of this name. -/
def lastWritten (history : History) (name : String) : Option Level :=
  history.reverse.findSome? fun (call, answer) =>
    if answer.2 = none then call.content.filter (·.name = name) else none

theorem lastWritten_append (history : History) (call : LevelCall) (answer : Level × Option String) (name : String) :
    lastWritten (history ++ [(call, answer)]) name =
      ((if answer.2 = none then call.content.filter (·.name = name) else none).or (lastWritten history name)) := by
  simp only [lastWritten, List.reverse_append, List.reverse_singleton, List.singleton_append, List.findSome?_cons]
  cases if answer.2 = none then call.content.filter (·.name = name) else none <;> rfl

end History

/-- The invariant of the store: the key of an entry is its name, its content was written last. -/
structure Keyed (history : History) (b : Bucket) : Prop where
  name : ∀ key level, b.levels key = some level → level.name = key
  last : ∀ key level, b.levels key = some level → history.lastWritten key = some level

namespace Keyed

variable {gocb : Gocb} {history : History} {b : Bucket}

theorem empty : Keyed [] ∅ := by
  constructor
  all_goals
    intro key level found
    simp [Bucket.levels] at found

theorem of_update {m : LevelMap} {changed key : String} {value : Option Level} {entry : Level}
    (found : Function.update m changed value key = some entry) :
    (key = changed ∧ value = some entry) ∨ (key ≠ changed ∧ m key = some entry) := by
  by_cases same : key = changed
  · subst same
    rw [Function.update_self] at found
    exact .inl ⟨rfl, found⟩
  · rw [Function.update_of_ne same] at found
    exact .inr ⟨same, found⟩

theorem entry_of_spec {call : LevelCall} {m n : LevelMap} {level : Level} (prescribed : call.spec m = some (level, n))
    {key : String} {entry : Level} (found : n key = some entry) :
    (m key = some entry ∧ ∀ written, call.content = some written → written.name ≠ key) ∨
      (entry.name = key ∧ call.content = some entry) := by
  rcases call with (added | ⟨levelName, newlevel⟩ | levelName) | levelName
  · obtain ⟨-, -, rfl⟩ := LevelCall.spec_addLevel.mp prescribed
    rcases of_update found with ⟨rfl, written⟩ | ⟨other, kept⟩
    · cases written
      exact .inr ⟨rfl, rfl⟩
    · exact .inl ⟨kept, by rintro _ ⟨⟩; exact Ne.symm other⟩
  · obtain ⟨-, -, rfl⟩ := LevelCall.spec_updateLevel.mp prescribed
    rcases of_update found with ⟨rfl, written⟩ | ⟨other, kept⟩
    · cases written
      exact .inr ⟨rfl, rfl⟩
    · rcases of_update kept with ⟨-, gone⟩ | ⟨-, kept⟩
      · cases gone
      · exact .inl ⟨kept, by rintro _ ⟨⟩; exact Ne.symm other⟩
  · obtain ⟨-, -, rfl⟩ := LevelCall.spec_deleteLevel.mp prescribed
    rcases of_update found with ⟨-, gone⟩ | ⟨-, kept⟩
    · cases gone
    · exact .inl ⟨kept, by rintro _ ⟨⟩⟩
  · obtain ⟨-, rfl⟩ := LevelCall.spec_getLevelByName.mp prescribed
    exact .inl ⟨found, by rintro _ ⟨⟩⟩

theorem step (keyed : Keyed history b) (call : LevelCall) :
    Keyed (history ++ [(call, (call.program.run gocb.serve b).1)]) (call.after gocb b) := by
  by_cases succeeds : call.Succeeds gocb b
  · obtain ⟨⟨level, m⟩, prescribed⟩ := Option.ne_none_iff_exists'.mp (LevelCall.succeeds_iff.mp succeeds)
    obtain ⟨answer, levels⟩ := LevelCall.run_of_spec gocb prescribed
    constructor
    · intro key entry found
      rw [levels] at found
      rcases entry_of_spec prescribed found with ⟨kept, -⟩ | ⟨named, -⟩
      · exact keyed.name key entry kept
      · exact named
    · intro key entry found
      rw [levels] at found
      rw [History.lastWritten_append, answer, if_pos rfl]
      rcases entry_of_spec prescribed found with ⟨kept, others⟩ | ⟨named, written⟩
      · have unwritten : call.content.filter (·.name = key) = none := by
          simpa [Option.filter_eq_none_iff] using others
        rw [unwritten, Option.none_or]
        exact keyed.last key entry kept
      · simp [written, named]
  · rw [LevelCall.after_of_refused succeeds]
    have failed : (call.program.run gocb.serve b).1.2 ≠ none := succeeds
    refine ⟨keyed.name, fun key entry found => ?_⟩
    rw [History.lastWritten_append, if_neg failed, Option.none_or]
    exact keyed.last key entry found

theorem serially (gocb : Gocb) (calls : List LevelCall) :
    Keyed (serially gocb.serve LevelCall.program calls ∅).1 (serially gocb.serve LevelCall.program calls ∅).2 := by
  induction calls using List.reverseRecOn with
  | nil => exact empty
  | append_singleton calls call ih =>
    rw [serially_append]
    exact ih.step call

end Keyed

def Named (b : Bucket) (name : String) : Prop := ∃ key level, b.lookup key = some level ∧ level.name = name

theorem Keyed.named_iff {history : History} {b : Bucket} (keyed : Keyed history b) (name : String) :
    Named b name ↔ b.levels name ≠ none := by
  constructor
  · intro named
    obtain ⟨key, level, found, rfl⟩ := named
    rw [keyed.name key level found]
    simp [Bucket.levels, found]
  · intro present
    obtain ⟨level, found⟩ := Option.ne_none_iff_exists'.mp present
    exact ⟨name, level, found, keyed.name name level found⟩

/-- What a client sees of the store after the calls of `history`. -/
structure IsLevelMap (gocb : Gocb) (history : History) (b : Bucket) : Prop where
  keyed : ∀ key level, b.lookup key = some level → level.name = key
  adds : ∀ level, (LevelCall.request (.addLevel level)).Succeeds gocb b ↔ ¬ Named b level.name
  deletes : ∀ name, (LevelCall.request (.deleteLevel name)).Succeeds gocb b ↔ Named b name
  gets : ∀ name, (LevelCall.getLevelByName name).Succeeds gocb b ↔ Named b name
  content : ∀ name, Named b name →
    history.lastWritten name = some ((LevelCall.getLevelByName name).program.run gocb.serve b).1.1
  updates : ∀ old new, (LevelCall.request (.updateLevel old new)).Succeeds gocb b ↔
    Named b old ∧ (new.name = old ∨ ¬ Named b new.name)
  added : ∀ level, (LevelCall.request (.addLevel level)).Succeeds gocb b → ∀ key,
    ((LevelCall.request (.addLevel level)).after gocb b).lookup key =
      if key = level.name then some level else b.lookup key
  deleted : ∀ name, (LevelCall.request (.deleteLevel name)).Succeeds gocb b → ∀ key,
    ((LevelCall.request (.deleteLevel name)).after gocb b).lookup key = if key = name then none else b.lookup key
  updated : ∀ old new, (LevelCall.request (.updateLevel old new)).Succeeds gocb b → ∀ key,
    ((LevelCall.request (.updateLevel old new)).after gocb b).lookup key =
      if key = new.name then some new else if key = old then none else b.lookup key
  read : ∀ name key, ((LevelCall.getLevelByName name).after gocb b).lookup key = b.lookup key
  failed : ∀ call : LevelCall, ¬ call.Succeeds gocb b → call.after gocb b = b

namespace LevelCall

variable {gocb : Gocb} {b : Bucket} {call : LevelCall}

theorem lookup_after (succeeds : call.Succeeds gocb b) :
    ∃ answer m, call.spec b.levels = some (answer, m) ∧ ∀ key, (call.after gocb b).lookup key = m key := by
  obtain ⟨⟨answer, m⟩, prescribed⟩ := Option.ne_none_iff_exists'.mp (succeeds_iff.mp succeeds)
  exact ⟨answer, m, prescribed, congrFun (run_of_spec gocb prescribed).2⟩

end LevelCall

theorem Keyed.isLevelMap {gocb : Gocb} {history : History} {b : Bucket} (keyed : Keyed history b) :
    IsLevelMap gocb history b where
  keyed := keyed.name
  adds level := by
    rw [LevelCall.succeeds_iff, keyed.named_iff]
    simp [LevelCall.spec]
  deletes name := by
    rw [LevelCall.succeeds_iff, keyed.named_iff]
    simp [LevelCall.spec]
  gets name := by
    rw [LevelCall.succeeds_iff, keyed.named_iff]
    simp [LevelCall.spec]
  content name present := by
    rw [keyed.named_iff] at present
    obtain ⟨level, found⟩ := Option.ne_none_iff_exists'.mp present
    have prescribed := LevelCall.spec_getLevelByName.mpr ⟨found, rfl⟩
    rw [(LevelCall.run_of_spec gocb prescribed).1, keyed.last name level found]
  updates old new := by
    rw [LevelCall.succeeds_iff, keyed.named_iff, keyed.named_iff]
    simp only [LevelCall.spec, ne_eq, ite_eq_right_iff, reduceCtorEq, imp_false, not_not]
  added level succeeds key := by
    obtain ⟨_, m, prescribed, looked⟩ := LevelCall.lookup_after succeeds
    obtain ⟨-, -, rfl⟩ := LevelCall.spec_addLevel.mp prescribed
    rw [looked, Function.update_apply]
    rfl
  deleted name succeeds key := by
    obtain ⟨_, m, prescribed, looked⟩ := LevelCall.lookup_after succeeds
    obtain ⟨-, -, rfl⟩ := LevelCall.spec_deleteLevel.mp prescribed
    rw [looked, Function.update_apply]
    rfl
  updated old new succeeds key := by
    obtain ⟨_, m, prescribed, looked⟩ := LevelCall.lookup_after succeeds
    obtain ⟨-, -, rfl⟩ := LevelCall.spec_updateLevel.mp prescribed
    rw [looked, Function.update_apply, Function.update_apply]
    rfl
  read name key := by
    by_cases succeeds : (LevelCall.getLevelByName name).Succeeds gocb b
    · obtain ⟨_, m, prescribed, looked⟩ := LevelCall.lookup_after succeeds
      obtain ⟨-, rfl⟩ := LevelCall.spec_getLevelByName.mp prescribed
      rw [looked]
      rfl
    · rw [LevelCall.after_of_refused succeeds]
  failed call refused := LevelCall.after_of_refused refused

theorem level_store_is_map (gocb : Gocb) (calls : List LevelCall) :
    IsLevelMap gocb (serially gocb.serve LevelCall.program calls ∅).1
      (serially gocb.serve LevelCall.program calls ∅).2 :=
  (Keyed.serially gocb calls).isLevelMap

end ArRobotCode.Server
