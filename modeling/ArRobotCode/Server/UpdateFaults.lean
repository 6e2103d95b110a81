import ArRobotCode.Server.UpdateSteps

namespace ArRobotCode.Server

open Programs

namespace CouchBaseRepository

def outcome (result : Option String × Nat × Bucket) : Option String × Bucket := (result.1, result.2.2)

variable (gocb : Gocb) (faults : Nat → Option String) (levelName : String) (newlevel : Level) (b : Bucket)

def updateLevelFaulty : Option String × Bucket :=
  outcome ((updateLevel levelName newlevel).run (gocb.serveFaulty faults) (0, b))

/-- An error leaves the bucket as it was; without one the new level has taken the place of the old one. -/
def AllOrNothing (result : Option String × Bucket) : Prop :=
  match result.1 with
  | some _ => result.2 = b
  | none => result.2 = (b.erase levelName).insert newlevel.name newlevel

variable {gocb faults levelName newlevel b}

theorem allOrNothing_failed {result : Option String × Bucket} (failed : result.1 ≠ none) :
    AllOrNothing levelName newlevel b result ↔ result.2 = b := by
  unfold AllOrNothing
  cases err : result.1 with
  | none => exact absurd err failed
  | some text => rfl

section Runs

variable (gocb) (op : BucketOp) (n : Nat)

theorem run_refused (refuses : ¬ (faults n = none ∧ op.Admits b)) :
    ∃ reply : Reply, reply.err ≠ none ∧ ∀ rest : Reply → Program BucketOp Reply (Option String),
      (Program.call op rest).run (gocb.serveFaulty faults) (n, b) =
        (rest reply).run (gocb.serveFaulty faults) (n + 1, b) := by
  obtain ⟨failed, stays⟩ := gocb.serveFaulty_refused refuses
  exact ⟨_, failed, fun rest => by rw [Program.run_call, stays]⟩

theorem run_admitted (free : faults n = none) (admits : op.Admits b) :
    ∃ reply : Reply, reply.err = none ∧ ∀ rest : Reply → Program BucketOp Reply (Option String),
      (Program.call op rest).run (gocb.serveFaulty faults) (n, b) =
        (rest reply).run (gocb.serveFaulty faults) (n + 1, op.effect b) := by
  obtain ⟨done, changes⟩ := gocb.serveFaulty_admitted free admits
  exact ⟨_, done, fun rest => by rw [Program.run_call, changes]⟩

variable (faults b)

theorem run_get (key : String) :
    ∃ reply : Reply, (reply.err = none ↔ faults n = none ∧ key ∈ b) ∧
      ∀ rest : Reply → Program BucketOp Reply (Option String),
        (Program.call (.get key) rest).run (gocb.serveFaulty faults) (n, b) =
          (rest reply).run (gocb.serveFaulty faults) (n + 1, b) := by
  by_cases both : faults n = none ∧ key ∈ b
  · obtain ⟨reply, answered, runs⟩ := run_admitted gocb (.get key) n both.1 both.2
    exact ⟨reply, iff_of_true answered both, runs⟩
  · obtain ⟨reply, failed, runs⟩ := run_refused gocb (.get key) n both
    exact ⟨reply, iff_of_false failed both, runs⟩

end Runs

theorem run_addNew (n : Nat) : (addNew newlevel).run (gocb.serveFaulty faults) (n, b) =
    (insertNew newlevel).run (gocb.serveFaulty faults) (n + 1, b) := by
  unfold addNew
  by_cases free : faults n = none
  · obtain ⟨reply, _, runs⟩ := run_admitted gocb (.createPrimaryIndex "levelsByName" true false) n free trivial
    exact runs _
  · obtain ⟨reply, _, runs⟩ :=
      run_refused gocb (.createPrimaryIndex "levelsByName" true false) n fun both => free both.1
    exact runs _

theorem erase_ne_self (present : levelName ∈ b) : b.erase levelName ≠ b := by
  intro same
  rw [← same] at present
  simp at present

theorem insert_erase (key : String) (level : Level) (b : Bucket) :
    (b.erase key).insert key level = b.insert key level := by
  apply Finmap.ext_lookup
  intro other
  rcases eq_or_ne other key with rfl | different
  · simp
  · simp [different]

theorem insertNew_allOrNothing_iff (renames : levelName ≠ newlevel.name) (present : levelName ∈ b) (n : Nat) :
    AllOrNothing levelName newlevel b
        (outcome ((insertNew newlevel).run (gocb.serveFaulty faults) (n, b.erase levelName))) ↔
      faults n = none ∧ newlevel.name ∉ b := by
  have absent : newlevel.name ∉ b.erase levelName ↔ newlevel.name ∉ b := by
    simp [Finmap.mem_erase, renames.symm]
  unfold insertNew
  by_cases inserts : faults n = none ∧ newlevel.name ∉ b
  · obtain ⟨reply, done, runs⟩ :=
      run_admitted gocb (.insert newlevel.name newlevel) n inserts.1 (absent.mpr inserts.2)
    rw [runs, Program.run_done, done]
    exact iff_of_true rfl inserts
  · obtain ⟨reply, failed, runs⟩ :=
      run_refused gocb (.insert newlevel.name newlevel) n fun both => inserts ⟨both.1, absent.mp both.2⟩
    rw [runs, Program.run_done, allOrNothing_failed (by simpa [outcome] using failed)]
    exact iff_of_false (erase_ne_self present) inserts

theorem move_allOrNothing_iff (renames : levelName ≠ newlevel.name) (present : levelName ∈ b) (n : Nat) :
    AllOrNothing levelName newlevel b
        (outcome ((move levelName newlevel).run (gocb.serveFaulty faults) (n, b))) ↔
      faults n ≠ none ∨ (faults (n + 2) = none ∧ newlevel.name ∉ b) := by
  unfold move
  by_cases free : faults n = none
  · obtain ⟨reply, done, runs⟩ := run_admitted gocb (.remove levelName) n free present
    rw [runs, done, Option.map_none]
    simp only [run_addNew, BucketOp.effect, insertNew_allOrNothing_iff renames present, free, ne_eq, not_true_eq_false,
      false_or]
  · obtain ⟨reply, failed, runs⟩ := run_refused gocb (.remove levelName) n fun both => free both.1
    obtain ⟨err, failed⟩ := Option.ne_none_iff_exists'.mp failed
    rw [runs, failed, Option.map_some, Program.run_done, allOrNothing_failed (by simp [outcome])]
    exact iff_of_true rfl (.inl free)

theorem replace_allOrNothing (same : levelName = newlevel.name) :
    AllOrNothing levelName newlevel b
      (outcome ((updateLevel levelName newlevel).run (gocb.serveFaulty faults) (0, b))) := by
  rw [updateLevel_same same]
  by_cases replaces : faults 0 = none ∧ levelName ∈ b
  · obtain ⟨reply, done, runs⟩ := run_admitted gocb (.replace levelName newlevel) 0 replaces.1 replaces.2
    rw [runs, Program.run_done, done]
    subst same
    exact (insert_erase newlevel.name newlevel b).symm
  · obtain ⟨reply, failed, runs⟩ := run_refused gocb (.replace levelName newlevel) 0 replaces
    rw [runs, Program.run_done, allOrNothing_failed (by simpa [outcome] using failed)]
    rfl

/-- An update keeps the promise when the level keeps its name; a rename does when it gives up before the removal, or
    when nothing stops the insertion. -/
theorem update_all_or_nothing_iff :
    AllOrNothing levelName newlevel b (updateLevelFaulty gocb faults levelName newlevel b) ↔
      levelName = newlevel.name ∨ levelName ∉ b ∨ faults 0 ≠ none ∨ (faults 1 = none ∧ newlevel.name ∈ b) ∨
        faults 2 ≠ none ∨ (faults 4 = none ∧ newlevel.name ∉ b) := by
  unfold updateLevelFaulty
  by_cases same : levelName = newlevel.name
  · exact iff_of_true (replace_allOrNothing same) (.inl same)
  obtain ⟨first, oldFound, runsFirst⟩ := run_get gocb faults b 0 levelName
  obtain ⟨second, newFound, runsSecond⟩ := run_get gocb faults b 1 newlevel.name
  rw [updateLevel_rename same, runsFirst, checkNew, runsSecond]
  by_cases stops : first.err ≠ none ∨ second.err = none
  · rw [if_pos stops, Program.run_done, allOrNothing_failed (by simp [outcome])]
    refine iff_of_true rfl (.inr ?_)
    tauto
  · rw [if_neg stops]
    have present : levelName ∈ b := by tauto
    rw [move_allOrNothing_iff same present]
    tauto

/-- The insertion times out after the removal: the old level is gone, the new one is not stored. -/
theorem update_loses_level :
    ¬ ∀ (gocb : Gocb) (faults : Nat → Option String) (levelName : String) (newlevel : Level) (b : Bucket),
      AllOrNothing levelName newlevel b (updateLevelFaulty gocb faults levelName newlevel b) := by
  intro always
  let timeout : Nat → Option String := fun n => if n = 4 then some "operation has timed out" else none
  let b : Bucket := Finmap.insert "a" { name := "a" } ∅
  have promise := always .plain timeout "a" { name := "b" } b
  have err : (updateLevelFaulty .plain timeout "a" { name := "b" } b).1 ≠ none := by decide +kernel
  have gone : (updateLevelFaulty .plain timeout "a" { name := "b" } b).2.lookup "a" = none := by decide +kernel
  rw [(allOrNothing_failed err).mp promise] at gone
  exact absurd gone (by decide +kernel)

end CouchBaseRepository

end ArRobotCode.Server
