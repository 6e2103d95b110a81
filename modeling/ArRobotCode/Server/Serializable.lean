import ArRobotCode.Server.ConcurrentRename

namespace ArRobotCode.Server

open Trapping Programs CouchBaseRepository HiddenKeys

variable {ι : Type} [DecidableEq ι] {gocb : Gocb} {requests : ι → Request} {b whole : Bucket} {order : List ι}
  {p p' : Requests ι} {i : ι}

def takeTurn (gocb : Gocb) (i : ι) : EStateM Empty (Requests ι) Unit := Pool.step gocb.serve i

def arrived (requests : ι → Request) (b : Bucket) : Requests ι := .start (fun i => (requests i).program) b

theorem Coherent.step_start (coherent : Coherent gocb requests b order whole p) (waiting : i ∉ order)
    (undisturbed : Undisturbed requests p i) (calls : p.threads i = (requests i).program) :
    ∃ order' whole', Coherent gocb requests b order' whole' (p.advance gocb.serve i) := by
  cases request : requests i with
  | addLevel level =>
    rw [request, Request.program, addLevel_eq] at calls
    have stage : Stage (requests i) (insertLevel level) := by
      rw [request]
      exact .adding level
    exact ⟨order, whole, coherent.pass calls rfl (by rintro value ⟨⟩) stage (by rw [request]; rfl) rfl⟩
  | deleteLevel levelName =>
    rw [request, Request.program, deleteLevel_eq] at calls
    apply coherent.step_last calls waiting undisturbed (by rw [request]; rfl)
    · exact fun reply => ⟨_, rfl, Option.isNone_map⟩
    · rw [request, Request.program, deleteLevel_eq]
      exact ⟨Option.isNone_map, rfl⟩
  | updateLevel levelName newlevel =>
    rw [request, Request.program] at calls
    by_cases same : levelName = newlevel.name
    · rw [updateLevel_same same] at calls
      apply coherent.step_last calls waiting undisturbed (by rw [request]; rfl)
      · exact fun reply => ⟨_, rfl, Option.isNone_map⟩
      · rw [request, Request.program, updateLevel_same same]
        exact ⟨Option.isNone_map, rfl⟩
    · rw [updateLevel_rename same] at calls
      exact coherent.step_getOld calls waiting undisturbed request same

theorem Coherent.step (coherent : Coherent gocb requests b order whole p) (undisturbed : Undisturbed requests p i) :
    ∃ order' whole', Coherent gocb requests b order' whole' (p.advance gocb.serve i) := by
  by_cases waiting : i ∈ order
  · exact ⟨order, whole, coherent.step_settled waiting⟩
  have stage := coherent.stage i waiting
  generalize request : requests i = r at stage
  generalize calls : p.threads i = program at stage
  cases stage with
  | start => exact coherent.step_start waiting undisturbed (by rw [calls, request])
  | adding level =>
    apply coherent.step_last calls waiting undisturbed (by rw [request]; rfl)
    · exact fun reply => ⟨_, rfl, Option.isNone_map⟩
    · rw [request, Request.program, addLevel_eq]
      exact ⟨Option.isNone_map, rfl⟩
  | checking renames found => exact coherent.step_getNew calls found waiting undisturbed request renames
  | moving renames => exact coherent.step_removeOld calls waiting undisturbed request renames
  | indexing renames => exact coherent.step_index calls request renames
  | inserting renames => exact coherent.step_insertNew calls waiting undisturbed request renames

theorem Coherent.run {schedule : List ι} (coherent : Coherent gocb requests b order whole p)
    (undisturbed : Along (takeTurn gocb) (Undisturbed requests) schedule p)
    (ran : (runAll (takeTurn gocb) schedule).run p = .ok () p') :
    ∃ order' whole', Coherent gocb requests b order' whole' p' := by
  have start : ∃ order whole, Coherent gocb requests b order whole p := ⟨order, whole, coherent⟩
  apply undisturbed.keeps _ start ran
  intro p i p' here calm taken
  obtain ⟨order, whole, coherent⟩ := here
  cases taken
  exact coherent.step calm

omit [DecidableEq ι] in
theorem Request.program_calls (request : Request) :
    ∃ op rest, request.program = .call op rest ∧ request.taken (.call op rest) = none := by
  cases request with
  | addLevel level => exact ⟨_, _, addLevel_eq level, rfl⟩
  | deleteLevel levelName => exact ⟨_, _, deleteLevel_eq levelName, rfl⟩
  | updateLevel levelName newlevel =>
    by_cases same : levelName = newlevel.name
    · exact ⟨_, _, updateLevel_same same, rfl⟩
    · exact ⟨_, _, updateLevel_rename same, rfl⟩

omit [DecidableEq ι] in
theorem arrived_coherent (gocb : Gocb) (requests : ι → Request) (b : Bucket) :
    Coherent gocb requests b [] b (arrived requests b) where
  committed :=
    { nodup := List.nodup_nil
      last := rfl
      settled := by rintro entry ⟨⟩
      ended := fun i value ended => by
        obtain ⟨op, rest, calls, _⟩ := (requests i).program_calls
        cases calls.symm.trans ended }
  hides := by
    have empty : (fun j => (requests j).taken ((arrived requests b).threads j)) = fun _ => none := by
      funext j
      obtain ⟨op, rest, calls, empty⟩ := (requests j).program_calls
      exact (congrArg (requests j).taken calls).trans empty
    rw [empty]
    exact .refl b
  stage i _ := .start (requests i)

omit [DecidableEq ι] in
theorem Coherent.whole_eq (coherent : Coherent gocb requests b order whole p)
    (complete : ∀ i, ∃ err, p.threads i = .done err) : whole = p.shared := by
  apply Finmap.ext_lookup
  intro key
  apply coherent.hides.same key
  intro j owned
  obtain ⟨err, ended⟩ := complete j
  simp only [ended] at owned
  cases request : requests j <;> simp [request, Request.taken] at owned

/-- Requests that do not disturb each other's renames leave the bucket and the answers of some order, and each level
    that was there is there under the name that the requests gave it, unless one of them deleted it. -/
theorem undisturbed_serializable {schedule : List ι}
    (ran : (runAll (takeTurn gocb) schedule).run (arrived requests b) = .ok () p)
    (undisturbed : Along (takeTurn gocb) (Undisturbed requests) schedule (arrived requests b))
    (complete : ∀ i, ∃ err, p.threads i = .done err) :
    ∃ order, SerialOrder gocb.serve Option.isNone (fun i => (requests i).program) b p order ∧
      ∀ name ∈ b, ∀ current,
        followed requests (serially gocb.serve (fun i => (requests i).program) order b).1 name = some current →
          current ∈ p.shared := by
  obtain ⟨order, whole, coherent⟩ := (arrived_coherent gocb requests b).run undisturbed ran
  have bucket := coherent.whole_eq complete
  subst bucket
  refine ⟨order, coherent.committed.serialOrder complete, fun name member current follows => ?_⟩
  rw [← coherent.committed.last]
  exact followed_present gocb requests order member follows

def oneLevel : Bucket := Finmap.insert "a" { name := "a" } ∅

def renameAndAdd (added : String) : Bool → Request
  | false => .updateLevel "a" { name := "b" }
  | true => .addLevel { name := added }

theorem undisturbed_serializable_other_name :
    ∃ p, (∃ order,
        SerialOrder Gocb.plain.serve Option.isNone (fun i => (renameAndAdd "c" i).program) oneLevel p order) ∧
      (runAll (takeTurn .plain) [false, true, false, false, true, false, false]).run
        (arrived (renameAndAdd "c") oneLevel) = .ok () p := by
  have undisturbed : Along (takeTurn .plain) (Undisturbed (renameAndAdd "c"))
      [false, true, false, false, true, false, false] (arrived (renameAndAdd "c") oneLevel) := by
    refine .cons_final ?_ (.cons_final ?_ (.cons_final ?_ (.cons_final ?_ (.cons_final ?_ (.cons_final ?_
      (.cons_final ?_ trivial))))))
    all_goals decide +kernel
  have ran := run_eq_of_trapOf_eq_none
    (x := runAll (takeTurn .plain) [false, true, false, false, true, false, false])
    (s := arrived (renameAndAdd "c") oneLevel) rfl
  have complete : ∀ i, ∃ err, (final (runAll (takeTurn .plain) [false, true, false, false, true, false, false])
      (arrived (renameAndAdd "c") oneLevel)).threads i = .done err := by
    rintro (_ | _)
    · exact ⟨none, rfl⟩
    · exact ⟨none, rfl⟩
  obtain ⟨order, serial, _⟩ := undisturbed_serializable ran undisturbed complete
  exact ⟨_, ⟨order, serial⟩, ran⟩

/-- Another request stores a level under the new name after the rename has looked: the rename has deleted the old level
    when it fails, and no order of the two requests does that. -/
theorem renamed_level_lost :
    ¬ ∀ (requests : Bool → Request) (b : Bucket) (schedule : List Bool) (p : Requests Bool),
      (runAll (takeTurn .plain) schedule).run (arrived requests b) = .ok () p →
      (∀ i, ∃ err, p.threads i = .done err) →
      ∃ order, SerialOrder Gocb.plain.serve Option.isNone (fun i => (requests i).program) b p order := by
  intro always
  have ran := run_eq_of_trapOf_eq_none
    (x := runAll (takeTurn .plain) [false, false, true, true, false, false, false])
    (s := arrived (renameAndAdd "b") oneLevel) rfl
  generalize lost : final _ _ = p at ran
  have failed : ∃ text, p.threads false = .done (some text) := by
    rw [← lost]
    exact ⟨_, rfl⟩
  have added : p.threads true = .done none := by
    rw [← lost]
    rfl
  obtain ⟨text, failed⟩ := failed
  obtain ⟨order, serial⟩ := always (renameAndAdd "b") oneLevel _ p ran (by
    rintro (_ | _)
    · exact ⟨_, failed⟩
    · exact ⟨_, added⟩)
  have present : "a" ∈ oneLevel := by decide +kernel
  have remains := followed_present .plain (renameAndAdd "b") order present (followed_stays fun answer member => by
    obtain ⟨value, ended, same⟩ := serial.values answer member
    obtain ⟨i, err⟩ := answer
    cases i with
    | true => rfl
    | false =>
      rw [failed] at ended
      cases ended
      cases err with
      | none => simp at same
      | some text => rfl)
  rw [serial.last, ← lost] at remains
  exact absurd remains (by decide +kernel)

end ArRobotCode.Server
