import Mathlib.Data.Fintype.Defs
import ArRobotCode.Library.HiddenKeys
import ArRobotCode.Server.Requests

namespace ArRobotCode.Server

open Programs CouchBaseRepository HiddenKeys

def BucketOp.key? : BucketOp → Option String
  | .get key | .insert key _ | .replace key _ | .remove key => some key
  | .createPrimaryIndex _ _ _ => none

/-- The name that a rename has deleted while the level is not stored under its new name yet. -/
def Request.taken : Request → Program BucketOp Reply (Option String) → Option String
  | .updateLevel levelName _, .call (.createPrimaryIndex _ _ _) _ => some levelName
  | .updateLevel levelName _, .call (.insert _ _) _ => some levelName
  | _, _ => none

variable {ι : Type}

abbrev Requests (ι : Type) := Pool ι Bucket BucketOp Reply (Option String)

/-- No operation is about a name that another request's rename has just deleted, and a rename that has deleted the old
    name finds the new one still free. -/
def Undisturbed (requests : ι → Request) (p : Requests ι) (i : ι) : Prop :=
  match p.threads i with
  | .done _ => True
  | .call op _ => (∀ j, j ≠ i → ∀ key ∈ op.key?, (requests j).taken (p.threads j) ≠ some key) ∧
      ((requests i).taken (p.threads i) ≠ none → ∀ key ∈ op.key?, key ∉ p.shared)

instance [Fintype ι] [DecidableEq ι] (requests : ι → Request) (p : Requests ι) (i : ι) :
    Decidable (Undisturbed requests p i) :=
  match calls : p.threads i with
  | .done _ => isTrue (by simp [Undisturbed, calls])
  | .call op rest => decidable_of_iff
      ((∀ j, j ≠ i → ∀ key ∈ op.key?, (requests j).taken (p.threads j) ≠ some key) ∧
        ((requests i).taken (.call op rest) ≠ none → ∀ key ∈ op.key?, key ∉ p.shared))
      (by simp only [Undisturbed, calls])

inductive Stage : Request → Program BucketOp Reply (Option String) → Prop where
  | start (request : Request) : Stage request request.program
  | adding (level : Level) : Stage (.addLevel level) (insertLevel level)
  | checking {levelName : String} {newlevel : Level} {first : Reply} (renames : levelName ≠ newlevel.name)
      (found : first.err = none) : Stage (.updateLevel levelName newlevel) (checkNew levelName newlevel first)
  | moving {levelName : String} {newlevel : Level} (renames : levelName ≠ newlevel.name) :
      Stage (.updateLevel levelName newlevel) (move levelName newlevel)
  | indexing {levelName : String} {newlevel : Level} (renames : levelName ≠ newlevel.name) :
      Stage (.updateLevel levelName newlevel) (addNew newlevel)
  | inserting {levelName : String} {newlevel : Level} (renames : levelName ≠ newlevel.name) :
      Stage (.updateLevel levelName newlevel) (insertNew newlevel)

def Reads : BucketOp → Prop
  | .get _ => True
  | _ => False

/-- The bucket is the one that the requests of `order` leave when each runs alone, but for the names that renames have
    deleted and not replaced yet. -/
structure Coherent (gocb : Gocb) (requests : ι → Request) (b : Bucket) (order : List ι) (whole : Bucket)
    (p : Requests ι) : Prop where
  committed : Committed gocb.serve Reads Option.isNone (fun i => (requests i).program) b order whole p
  hides : Hides (fun i => (requests i).taken (p.threads i)) whole p.shared
  stage : ∀ i, i ∉ order → Stage (requests i) (p.threads i)

theorem taken_of_settled {program : Program BucketOp Reply (Option String)} {seen : Bool}
    (settled : program.Settled Reads Option.isNone seen) (request : Request) : request.taken program = none := by
  cases settled with
  | done same => cases request <;> rfl
  | @call op rest read always => cases request <;> cases op <;> first | rfl | exact absurd read not_false

theorem hides_serve (gocb : Gocb) {taken : ι → Option String} {whole actual : Bucket} {op : BucketOp}
    (hides : Hides taken whole actual) (free : ∀ key ∈ op.key?, ∀ j, taken j ≠ some key) :
    Hides taken (gocb.serve op whole).2 (gocb.serve op actual).2 ∧
      ((gocb.serve op whole).1.err.isNone = (gocb.serve op actual).1.err.isNone) := by
  have agree : op.Admits whole ↔ op.Admits actual := by
    cases op with
    | get key | replace key level | remove key => exact hides.mem_iff (free key rfl)
    | insert key level => exact not_congr (hides.mem_iff (free key rfl))
    | createPrimaryIndex customName ignoreIfExists deferred => exact Iff.rfl
  refine ⟨?_, ?_⟩
  · by_cases admits : op.Admits whole
    · rw [gocb.serve_admitted admits, gocb.serve_admitted (agree.mp admits)]
      cases op with
      | get key => exact hides
      | createPrimaryIndex customName ignoreIfExists deferred => exact hides
      | insert key level => exact hides.insert (free key rfl) level
      | replace key level => exact hides.insert (free key rfl) level
      | remove key => exact hides.erase (free key rfl)
    · rw [gocb.serve_refused admits, gocb.serve_refused fun admits' => admits (agree.mpr admits')]
      exact hides
  · rw [Bool.eq_iff_iff, Option.isNone_iff_eq_none, Option.isNone_iff_eq_none, gocb.serve_err, gocb.serve_err, agree]

section Steps

variable [DecidableEq ι] {gocb : Gocb} {requests : ι → Request} {b whole : Bucket} {order : List ι} {p : Requests ι}
  {i : ι} {op : BucketOp} {rest : Reply → Program BucketOp Reply (Option String)}

theorem taken_advance (calls : p.threads i = .call op rest) :
    (fun j => (requests j).taken ((p.advance gocb.serve i).threads j)) =
      Function.update (fun j => (requests j).taken (p.threads j)) i
        ((requests i).taken (rest (gocb.serve op p.shared).1)) := by
  funext j
  rw [Pool.advance_call calls]
  rcases eq_or_ne j i with rfl | other
  · simp only [Function.update_self]
  · simp only [Function.update_of_ne other]

theorem Coherent.stay (coherent : Coherent gocb requests b order whole p) (calls : p.threads i = .call op rest)
    {next : Program BucketOp Reply (Option String)} (continues : rest (gocb.serve op p.shared).1 = next)
    (pending : ∀ value, next ≠ .done value) (stage : Stage (requests i) next)
    (hides : Hides (Function.update (fun j => (requests j).taken (p.threads j)) i ((requests i).taken next)) whole
      (gocb.serve op p.shared).2) : Coherent gocb requests b order whole (p.advance gocb.serve i) := by
  have here : (p.advance gocb.serve i).threads i = next := by
    rw [Pool.advance_call calls, ← continues]
    exact Function.update_self ..
  refine ⟨coherent.committed.stay fun value ended => absurd (here.symm.trans ended) (pending value), ?_, ?_⟩
  · rw [taken_advance calls, continues, Pool.advance_call calls]
    exact hides
  · intro j waiting
    rcases eq_or_ne j i with rfl | other
    · rw [here]
      exact stage
    · rw [Pool.advance_other other]
      exact coherent.stage j waiting

theorem Coherent.pass (coherent : Coherent gocb requests b order whole p) (calls : p.threads i = .call op rest)
    {next : Program BucketOp Reply (Option String)} (continues : rest (gocb.serve op p.shared).1 = next)
    (pending : ∀ value, next ≠ .done value) (stage : Stage (requests i) next)
    (owns : (requests i).taken (p.threads i) = (requests i).taken next)
    (unchanged : (gocb.serve op p.shared).2 = p.shared) :
    Coherent gocb requests b order whole (p.advance gocb.serve i) := by
  apply coherent.stay calls continues pending stage
  rw [Function.update_eq_self_iff.mpr owns.symm, unchanged]
  exact coherent.hides

theorem Coherent.commit (coherent : Coherent gocb requests b order whole p) (calls : p.threads i = .call op rest)
    (waiting : i ∉ order)
    (sure : (rest (gocb.serve op p.shared).1).Settled Reads Option.isNone
      ((requests i).program.run gocb.serve whole).1.isNone)
    (hides : Hides (Function.update (fun j => (requests j).taken (p.threads j)) i none)
      ((requests i).program.run gocb.serve whole).2 (gocb.serve op p.shared).2) :
    ∃ order' whole', Coherent gocb requests b order' whole' (p.advance gocb.serve i) := by
  have here : (p.advance gocb.serve i).threads i = rest (gocb.serve op p.shared).1 := by
    rw [Pool.advance_call calls]
    exact Function.update_self ..
  refine ⟨order ++ [i], _, coherent.committed.commit waiting (by rw [here]; exact sure), ?_, ?_⟩
  · rw [taken_advance calls, taken_of_settled sure, Pool.advance_call calls]
    exact hides
  · intro j outside
    rw [List.mem_append, not_or, List.mem_singleton] at outside
    rw [Pool.advance_other outside.2]
    exact coherent.stage j outside.1

theorem Coherent.step_settled (coherent : Coherent gocb requests b order whole p) (member : i ∈ order) :
    Coherent gocb requests b order whole (p.advance gocb.serve i) := by
  obtain ⟨seen, settled⟩ := coherent.committed.settled_of_mem member
  cases ends : p.threads i with
  | done value =>
    rw [Pool.advance_done ends]
    exact coherent
  | call op rest =>
    have before := taken_of_settled settled (requests i)
    rw [ends] at settled
    cases settled with
    | call read always =>
      have unchanged : (gocb.serve op p.shared).2 = p.shared := by
        cases op <;> first | exact gocb.serve_get_bucket _ _ | exact absurd read not_false
      refine ⟨coherent.committed.stay fun _ _ => member, ?_, fun j waiting => ?_⟩
      · rw [taken_advance ends, taken_of_settled (always _), Pool.advance_call ends, unchanged,
          Function.update_eq_self_iff.mpr before.symm]
        exact coherent.hides
      · rw [Pool.advance_other (by rintro rfl; exact waiting member)]
        exact coherent.stage j waiting

omit [DecidableEq ι] in
theorem Undisturbed.free (undisturbed : Undisturbed requests p i) (calls : p.threads i = .call op rest) :
    (∀ j, j ≠ i → ∀ key ∈ op.key?, (requests j).taken (p.threads j) ≠ some key) ∧
      ((requests i).taken (.call op rest) ≠ none → ∀ key ∈ op.key?, key ∉ p.shared) := by
  unfold Undisturbed at undisturbed
  rwa [calls] at undisturbed

omit [DecidableEq ι] in
theorem Undisturbed.free_of_empty (undisturbed : Undisturbed requests p i) (calls : p.threads i = .call op rest)
    (empty : (requests i).taken (.call op rest) = none) :
    ∀ key ∈ op.key?, ∀ j, (requests j).taken (p.threads j) ≠ some key := by
  intro key member j
  rcases eq_or_ne j i with rfl | other
  · simp [calls, empty]
  · exact (undisturbed.free calls).1 j other key member

theorem Coherent.step_last (coherent : Coherent gocb requests b order whole p) (calls : p.threads i = .call op rest)
    (waiting : i ∉ order) (undisturbed : Undisturbed requests p i)
    (empty : (requests i).taken (.call op rest) = none)
    (ends : ∀ reply, ∃ err, rest reply = .done err ∧ err.isNone = reply.err.isNone)
    (alone : ((requests i).program.run gocb.serve whole).1.isNone = (gocb.serve op whole).1.err.isNone ∧
      ((requests i).program.run gocb.serve whole).2 = (gocb.serve op whole).2) :
    ∃ order' whole', Coherent gocb requests b order' whole' (p.advance gocb.serve i) := by
  have here : (requests i).taken (p.threads i) = none := by rw [calls]; exact empty
  obtain ⟨hides, sameAnswer⟩ := hides_serve gocb coherent.hides (undisturbed.free_of_empty calls empty)
  apply coherent.commit calls waiting
  · obtain ⟨err, ended, same⟩ := ends (gocb.serve op p.shared).1
    rw [ended, alone.1, sameAnswer]
    exact .done same
  · rw [Function.update_eq_self_iff.mpr here.symm, alone.2]
    exact hides

end Steps

end ArRobotCode.Server
