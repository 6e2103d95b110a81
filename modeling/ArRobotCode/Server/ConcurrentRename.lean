import ArRobotCode.Server.Concurrent

namespace ArRobotCode.Server

open Programs CouchBaseRepository HiddenKeys

variable {ι : Type} [DecidableEq ι] {gocb : Gocb} {requests : ι → Request} {b whole : Bucket} {order : List ι}
  {p : Requests ι} {i : ι} {op : BucketOp} {rest : Reply → Program BucketOp Reply (Option String)}
  {levelName : String} {newlevel : Level}

theorem Coherent.give_up (coherent : Coherent gocb requests b order whole p) (calls : p.threads i = .call op rest)
    (waiting : i ∉ order) (request : requests i = .updateLevel levelName newlevel)
    (renames : levelName ≠ newlevel.name) (empty : (requests i).taken (.call op rest) = none)
    (refused : levelName ∉ whole ∨ newlevel.name ∈ whole)
    (unchanged : (gocb.serve op p.shared).2 = p.shared)
    (sure : (rest (gocb.serve op p.shared).1).Settled Reads Option.isNone false) :
    ∃ order' whole', Coherent gocb requests b order' whole' (p.advance gocb.serve i) := by
  have alone := run_rename_refused gocb renames refused
  have here : (requests i).taken (p.threads i) = none := by rw [calls]; exact empty
  apply coherent.commit calls waiting
  · rw [request, Request.program, Option.isNone_eq_false_iff.mpr (Option.isSome_iff_ne_none.mpr alone.1)]
    exact sure
  · rw [Function.update_eq_self_iff.mpr here.symm, request, Request.program, alone.2, unchanged]
    exact coherent.hides

theorem Coherent.step_getOld (coherent : Coherent gocb requests b order whole p)
    (calls : p.threads i = .call (.get levelName) (checkNew levelName newlevel)) (waiting : i ∉ order)
    (undisturbed : Undisturbed requests p i) (request : requests i = .updateLevel levelName newlevel)
    (renames : levelName ≠ newlevel.name) :
    ∃ order' whole', Coherent gocb requests b order' whole' (p.advance gocb.serve i) := by
  have empty : (requests i).taken (.call (.get levelName) (checkNew levelName newlevel)) = none := by rw [request]; rfl
  have free := undisturbed.free_of_empty calls empty levelName rfl
  by_cases found : (gocb.serve (.get levelName) p.shared).1.err = none
  · have stage : Stage (requests i) (checkNew levelName newlevel (gocb.serve (.get levelName) p.shared).1) := by
      rw [request]
      exact .checking renames found
    exact ⟨order, whole, coherent.pass calls rfl (by rintro value ⟨⟩) stage (by rw [calls, request]; rfl)
      (gocb.serve_get_bucket _ _)⟩
  · have absent : levelName ∉ whole := by
      rw [coherent.hides.mem_iff free]
      exact fun member => found ((gocb.serve_err _ _).mpr member)
    apply coherent.give_up calls waiting request renames empty (.inl absent) (gocb.serve_get_bucket _ _)
    refine .call trivial fun second => ?_
    rw [if_pos (.inl found)]
    exact .done rfl

theorem Coherent.step_getNew (coherent : Coherent gocb requests b order whole p) {first : Reply}
    (calls : p.threads i = checkNew levelName newlevel first) (passed : first.err = none) (waiting : i ∉ order)
    (undisturbed : Undisturbed requests p i) (request : requests i = .updateLevel levelName newlevel)
    (renames : levelName ≠ newlevel.name) :
    ∃ order' whole', Coherent gocb requests b order' whole' (p.advance gocb.serve i) := by
  unfold checkNew at calls
  have empty : (requests i).taken (p.threads i) = none := by rw [calls, request]; rfl
  have free := undisturbed.free_of_empty calls (by rw [← calls]; exact empty) newlevel.name rfl
  by_cases found : (gocb.serve (.get newlevel.name) p.shared).1.err = none
  · have present : newlevel.name ∈ whole := by
      rw [coherent.hides.mem_iff free]
      exact (gocb.serve_err _ _).mp found
    apply coherent.give_up calls waiting request renames (by rw [← calls]; exact empty) (.inr present)
      (gocb.serve_get_bucket _ _)
    rw [if_pos (.inr found)]
    exact .done rfl
  · have continues : ¬ (first.err ≠ none ∨ (gocb.serve (.get newlevel.name) p.shared).1.err = none) := by
      simp [passed, found]
    have stage : Stage (requests i) (move levelName newlevel) := by
      rw [request]
      exact .moving renames
    exact ⟨order, whole, coherent.pass calls (if_neg continues) (by rintro value ⟨⟩) stage
      (by rw [empty, request]; rfl) (gocb.serve_get_bucket _ _)⟩

theorem Coherent.step_removeOld (coherent : Coherent gocb requests b order whole p)
    (calls : p.threads i = move levelName newlevel) (waiting : i ∉ order)
    (undisturbed : Undisturbed requests p i) (request : requests i = .updateLevel levelName newlevel)
    (renames : levelName ≠ newlevel.name) :
    ∃ order' whole', Coherent gocb requests b order' whole' (p.advance gocb.serve i) := by
  unfold move at calls
  have empty : (requests i).taken (p.threads i) = none := by rw [calls, request]; rfl
  have free := undisturbed.free_of_empty calls (by rw [← calls]; exact empty) levelName rfl
  by_cases member : levelName ∈ p.shared
  · have done : (gocb.serve (.remove levelName) p.shared).1.err = none := (gocb.serve_err _ _).mpr member
    have removed : (gocb.serve (.remove levelName) p.shared).2 = p.shared.erase levelName := gocb.serve_admitted member
    refine ⟨order, whole, coherent.stay calls (by rw [done]; rfl : _ = addNew newlevel) (by rintro value ⟨⟩) ?_ ?_⟩
    · rw [request]
      exact .indexing renames
    · have owns : (requests i).taken (addNew newlevel) = some levelName := by rw [request]; rfl
      rw [owns, removed]
      exact coherent.hides.take free empty member
  · have failed : (gocb.serve (.remove levelName) p.shared).1.err ≠ none :=
      fun none => member ((gocb.serve_err _ _).mp none)
    have absent : levelName ∉ whole := by rwa [coherent.hides.mem_iff free]
    apply coherent.give_up calls waiting request renames (by rw [← calls]; exact empty) (.inl absent)
      (gocb.serve_refused member)
    obtain ⟨err, failed⟩ := Option.ne_none_iff_exists'.mp failed
    rw [failed]
    exact .done rfl

theorem Coherent.step_index (coherent : Coherent gocb requests b order whole p)
    (calls : p.threads i = addNew newlevel) (request : requests i = .updateLevel levelName newlevel)
    (renames : levelName ≠ newlevel.name) :
    ∃ order' whole', Coherent gocb requests b order' whole' (p.advance gocb.serve i) := by
  have stage : Stage (requests i) (insertNew newlevel) := by
    rw [request]
    exact .inserting renames
  exact ⟨order, whole, coherent.pass calls rfl (by rintro value ⟨⟩) stage (by rw [calls, request]; rfl) rfl⟩

theorem Coherent.step_insertNew (coherent : Coherent gocb requests b order whole p)
    (calls : p.threads i = insertNew newlevel) (waiting : i ∉ order) (undisturbed : Undisturbed requests p i)
    (request : requests i = .updateLevel levelName newlevel) (renames : levelName ≠ newlevel.name) :
    ∃ order' whole', Coherent gocb requests b order' whole' (p.advance gocb.serve i) := by
  unfold insertNew at calls
  have owns : (requests i).taken (p.threads i) = some levelName := by rw [calls, request]; rfl
  obtain ⟨others, own⟩ := undisturbed.free calls
  have absent : newlevel.name ∉ p.shared := own (by rw [← calls, owns]; simp) newlevel.name rfl
  have free : ∀ j, (requests j).taken (p.threads j) ≠ some newlevel.name := by
    intro j
    rcases eq_or_ne j i with rfl | other
    · rw [owns]
      simpa using renames
    · exact others j other newlevel.name rfl
  have present := coherent.hides.present i levelName owns
  have alone := run_rename gocb renames present fun member => absent ((coherent.hides.mem_iff free).mp member)
  have done : (gocb.serve (.insert newlevel.name newlevel) p.shared).1.err = none := (gocb.serve_err _ _).mpr absent
  have inserted : (gocb.serve (.insert newlevel.name newlevel) p.shared).2 =
      p.shared.insert newlevel.name newlevel := gocb.serve_admitted absent
  apply coherent.commit calls waiting
  · rw [request, Request.program, alone, done]
    exact .done rfl
  · rw [request, Request.program, alone, inserted]
    exact coherent.hides.give owns free newlevel

end ArRobotCode.Server
