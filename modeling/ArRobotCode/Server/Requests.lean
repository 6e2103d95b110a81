import ArRobotCode.Server.UpdateSteps

namespace ArRobotCode.Server

open Programs CouchBaseRepository

inductive Request where
  | addLevel (level : Level)
  | updateLevel (levelName : String) (newlevel : Level)
  | deleteLevel (levelName : String)
deriving DecidableEq, Repr

def Request.program : Request → Program BucketOp Reply (Option String)
  | .addLevel level => CouchBaseRepository.addLevel level
  | .updateLevel levelName newlevel => CouchBaseRepository.updateLevel levelName newlevel
  | .deleteLevel levelName => CouchBaseRepository.deleteLevel levelName

/-- The name of a level after a request was answered, if it was not deleted. -/
def Request.heir : Request → Option String → String → Option String
  | .deleteLevel levelName, none, name => if levelName = name then none else some name
  | .updateLevel levelName newlevel, none, name => some (if levelName = name then newlevel.name else name)
  | _, _, name => some name

def followed {ι : Type} (requests : ι → Request) (answers : List (ι × Option String)) (name : String) : Option String :=
  answers.foldlM (fun name answer => (requests answer.1).heir answer.2 name) name

theorem followed_stays {ι : Type} {requests : ι → Request} {answers : List (ι × Option String)} {name : String}
    (stays : ∀ answer ∈ answers, (requests answer.1).heir answer.2 name = some name) :
    followed requests answers name = some name := by
  induction answers with
  | nil => rfl
  | cons answer answers ih =>
    have rest := ih fun other member => stays other (List.mem_cons_of_mem answer member)
    simp only [followed, List.foldlM_cons, stays answer List.mem_cons_self]
    exact rest

namespace CouchBaseRepository

def insertLevel (level : Level) : Program BucketOp Reply (Option String) :=
  .call (.insert level.name level) fun reply => .done (reply.err.map (errorf "Couldn't add the level" "-" reply))

theorem addLevel_eq (level : Level) :
    addLevel level = .call (.createPrimaryIndex "levelsByName" true false) fun _ => insertLevel level := rfl

theorem deleteLevel_eq (levelName : String) : deleteLevel levelName = .call (.remove levelName) fun reply =>
    .done (reply.err.map (errorf "Couldn't delete the level" " - " reply)) := rfl

end CouchBaseRepository

section Alone

variable (gocb : Gocb)

@[simp] theorem Gocb.serve_get_bucket (key : String) (b : Bucket) : (gocb.serve (.get key) b).2 = b := by
  cases found : b.lookup key <;> simp [Gocb.serve, found]

@[simp] theorem Gocb.serve_createPrimaryIndex_bucket (customName : String) (ignoreIfExists deferred : Bool)
    (b : Bucket) : (gocb.serve (.createPrimaryIndex customName ignoreIfExists deferred) b).2 = b := rfl

variable {levelName : String} {newlevel : Level} {b : Bucket}

theorem run_rename_refused (renames : levelName ≠ newlevel.name) (refused : levelName ∉ b ∨ newlevel.name ∈ b) :
    ((updateLevel levelName newlevel).run gocb.serve b).1 ≠ none ∧
      ((updateLevel levelName newlevel).run gocb.serve b).2 = b := by
  have stops : (gocb.serve (.get levelName) b).1.err ≠ none ∨ (gocb.serve (.get newlevel.name) b).1.err = none := by
    rw [Ne, gocb.serve_err, gocb.serve_err]
    exact refused
  rw [updateLevel_rename renames, Program.run_call, checkNew, Program.run_call]
  simp [stops]

theorem run_rename (renames : levelName ≠ newlevel.name) (present : levelName ∈ b) (absent : newlevel.name ∉ b) :
    (updateLevel levelName newlevel).run gocb.serve b = (none, (b.erase levelName).insert newlevel.name newlevel) := by
  have passes : ¬ ((gocb.serve (.get levelName) b).1.err ≠ none ∨
      (gocb.serve (.get newlevel.name) b).1.err = none) := by
    rw [Ne, gocb.serve_err, gocb.serve_err, not_or, not_not]
    exact ⟨present, absent⟩
  have removes : (gocb.serve (.remove levelName) b).1.err = none := (gocb.serve_err _ _).mpr present
  have absent' : newlevel.name ∉ b.erase levelName := by simp [Finmap.mem_erase, absent]
  have inserts : (gocb.serve (.insert newlevel.name newlevel) (b.erase levelName)).1.err = none :=
    (gocb.serve_err _ _).mpr absent'
  have removed : (gocb.serve (.remove levelName) b).2 = b.erase levelName := gocb.serve_admitted present
  have inserted : (gocb.serve (.insert newlevel.name newlevel) (b.erase levelName)).2 =
      (b.erase levelName).insert newlevel.name newlevel := gocb.serve_admitted absent'
  rw [updateLevel_rename renames, Program.run_call, checkNew, Program.run_call, gocb.serve_get_bucket,
    gocb.serve_get_bucket, if_neg passes, move, Program.run_call, removes, removed]
  simp [addNew, insertNew, inserts, inserted]

theorem mem_serve (op : BucketOp) {name : String} (member : name ∈ b) (kept : op ≠ .remove name) :
    name ∈ (gocb.serve op b).2 := by
  by_cases admits : op.Admits b
  · rw [gocb.serve_admitted admits]
    cases op with
    | get key => exact member
    | createPrimaryIndex customName ignoreIfExists deferred => exact member
    | insert key level => exact Finmap.mem_insert.mpr (.inr member)
    | replace key level => exact Finmap.mem_insert.mpr (.inr member)
    | remove key =>
      rw [BucketOp.effect, Finmap.mem_erase]
      refine ⟨?_, member⟩
      intro same
      subst same
      exact kept rfl
  · rw [gocb.serve_refused admits]
    exact member

theorem heir_failed {request : Request} {err : Option String} {name current : String} (failed : err ≠ none)
    (heir : request.heir err name = some current) : current = name := by
  obtain ⟨text, rfl⟩ := Option.ne_none_iff_exists'.mp failed
  cases request <;> simpa [Request.heir, eq_comm] using heir

theorem heir_delete (found : levelName ∈ b) {current : String}
    (heir : (Request.deleteLevel levelName).heir ((deleteLevel levelName).run gocb.serve b).1 levelName =
      some current) : False := by
  have done : (gocb.serve (.remove levelName) b).1.err = none := (gocb.serve_err _ _).mpr found
  simp [deleteLevel_eq, done, Request.heir] at heir

theorem heir_present_replace (keeps : levelName = newlevel.name) {name current : String} (member : name ∈ b)
    (heir : (Request.updateLevel levelName newlevel).heir
      ((updateLevel levelName newlevel).run gocb.serve b).1 name = some current) :
    current ∈ ((updateLevel levelName newlevel).run gocb.serve b).2 := by
  have same : name = current := by
    cases err : ((updateLevel levelName newlevel).run gocb.serve b).1 with
    | some text => simpa [err, Request.heir] using heir
    | none => by_cases here : levelName = name <;> simp_all [Request.heir]
  rw [← same, updateLevel_same keeps]
  exact mem_serve gocb (.replace levelName newlevel) member (by simp)

theorem heir_present_rename (renames : levelName ≠ newlevel.name) {name current : String} (member : name ∈ b)
    (heir : (Request.updateLevel levelName newlevel).heir
      ((updateLevel levelName newlevel).run gocb.serve b).1 name = some current) :
    current ∈ ((updateLevel levelName newlevel).run gocb.serve b).2 := by
  by_cases refused : levelName ∉ b ∨ newlevel.name ∈ b
  · obtain ⟨failed, unchanged⟩ := run_rename_refused gocb renames refused
    rw [unchanged, heir_failed failed heir]
    exact member
  rw [not_or, not_not] at refused
  rw [run_rename gocb renames refused.1 refused.2] at heir ⊢
  rw [Finmap.mem_insert, Finmap.mem_erase]
  by_cases here : levelName = name
  · simp only [Request.heir, here, if_true, Option.some.injEq] at heir
    exact .inl heir.symm
  · simp only [Request.heir, here, if_false, Option.some.injEq] at heir
    rw [← heir]
    exact .inr ⟨fun same => here same.symm, member⟩

theorem heir_present (request : Request) {name current : String} (member : name ∈ b)
    (heir : request.heir (request.program.run gocb.serve b).1 name = some current) :
    current ∈ (request.program.run gocb.serve b).2 := by
  cases request with
  | addLevel level =>
    have same : name = current := by simpa [Request.heir] using heir
    rw [← same]
    exact mem_serve gocb (.insert level.name level) member (by simp)
  | deleteLevel levelName =>
    have different : levelName ≠ name := by
      intro same
      subst same
      exact heir_delete gocb member heir
    have same : name = current := by
      cases err : ((Request.deleteLevel levelName).program.run gocb.serve b).1 <;>
        simpa [err, Request.heir, different] using heir
    rw [← same]
    exact mem_serve gocb (.remove levelName) member (by simpa using different)
  | updateLevel levelName newlevel =>
    by_cases keeps : levelName = newlevel.name
    · exact heir_present_replace gocb keeps member heir
    · exact heir_present_rename gocb keeps member heir

theorem followed_present {ι : Type} (requests : ι → Request) (order : List ι) {name current : String}
    (member : name ∈ b)
    (follows : followed requests (serially gocb.serve (fun i => (requests i).program) order b).1 name = some current) :
    current ∈ (serially gocb.serve (fun i => (requests i).program) order b).2 := by
  induction order generalizing b name with
  | nil =>
    cases follows
    exact member
  | cons i order ih =>
    obtain ⟨next, heir, later⟩ := Option.bind_eq_some_iff.mp follows
    exact ih (heir_present gocb (requests i) member heir) later

end Alone

end ArRobotCode.Server
