import ArRobotCode.Server.Repository

namespace ArRobotCode.Server

open Programs

namespace BucketOp

def Admits : BucketOp → Bucket → Prop
  | get key, b => key ∈ b
  | insert key _, b => key ∉ b
  | replace key _, b => key ∈ b
  | remove key, b => key ∈ b
  | createPrimaryIndex _ _ _, _ => True

def effect : BucketOp → Bucket → Bucket
  | get _, b => b
  | insert key level, b => b.insert key level
  | replace key level, b => b.insert key level
  | remove key, b => b.erase key
  | createPrimaryIndex _ _ _, b => b

end BucketOp

namespace Gocb

variable (gocb : Gocb) (op : BucketOp) (b : Bucket)

theorem serve_err : (gocb.serve op b).1.err = none ↔ op.Admits b := by
  cases op with
  | get key => cases found : b.lookup key <;> simp [serve, BucketOp.Admits, found, Finmap.lookup_isSome.symm]
  | insert key level => by_cases member : key ∈ b <;> simp [serve, BucketOp.Admits, member]
  | replace key level => by_cases member : key ∈ b <;> simp [serve, BucketOp.Admits, member]
  | remove key => by_cases member : key ∈ b <;> simp [serve, BucketOp.Admits, member]
  | createPrimaryIndex customName ignoreIfExists deferred => simp [serve, BucketOp.Admits]

variable {op b}

theorem serve_admitted (admits : op.Admits b) : (gocb.serve op b).2 = op.effect b := by
  cases op with
  | get key => cases found : b.lookup key <;> simp [serve, BucketOp.effect, found]
  | createPrimaryIndex customName ignoreIfExists deferred => rfl
  | insert key level | replace key level | remove key =>
    simp only [BucketOp.Admits] at admits
    simp [serve, BucketOp.effect, admits]

theorem serve_refused (refuses : ¬ op.Admits b) : (gocb.serve op b).2 = b := by
  cases op with
  | get key => cases found : b.lookup key <;> simp [serve, found]
  | createPrimaryIndex customName ignoreIfExists deferred => rfl
  | insert key level | replace key level | remove key =>
    simp only [BucketOp.Admits, not_not] at refuses
    simp [serve, refuses]

variable {faults : Nat → Option String} {n : Nat}

theorem serveFaulty_admitted (free : faults n = none) (admits : op.Admits b) :
    (gocb.serveFaulty faults op (n, b)).1.err = none ∧
      (gocb.serveFaulty faults op (n, b)).2 = (n + 1, op.effect b) := by
  simp only [serveFaulty, free, gocb.serve_admitted admits, and_true]
  exact (gocb.serve_err op b).mpr admits

theorem serveFaulty_refused (refuses : ¬ (faults n = none ∧ op.Admits b)) :
    (gocb.serveFaulty faults op (n, b)).1.err ≠ none ∧ (gocb.serveFaulty faults op (n, b)).2 = (n + 1, b) := by
  cases fault : faults n with
  | some err => simp [serveFaulty, fault]
  | none =>
    have notAdmitted : ¬ op.Admits b := fun admits => refuses ⟨fault, admits⟩
    simp only [serveFaulty, fault, gocb.serve_refused notAdmitted, and_true]
    exact fun none => notAdmitted ((gocb.serve_err op b).mp none)

end Gocb

namespace CouchBaseRepository

def insertNew (newlevel : Level) : Program BucketOp Reply (Option String) :=
  .call (.insert newlevel.name newlevel) fun inserted =>
    .done ((inserted.err.map (errorf "Couldn't add the level" "-" inserted)).map fun err =>
      s!"Couldn't update the level: {err}\n")

def addNew (newlevel : Level) : Program BucketOp Reply (Option String) :=
  .call (.createPrimaryIndex "levelsByName" true false) fun _ => insertNew newlevel

def move (levelName : String) (newlevel : Level) : Program BucketOp Reply (Option String) :=
  .call (.remove levelName) fun removed => match removed.err.map (errorf "Couldn't delete the level" " - " removed) with
    | some err => .done (some s!"Couldn't update the level: {err}\n")
    | none => addNew newlevel

def checkNew (levelName : String) (newlevel : Level) (first : Reply) : Program BucketOp Reply (Option String) :=
  .call (.get newlevel.name) fun second =>
    if first.err ≠ none ∨ second.err = none then
      .done (some "Couldn't update the level: old level name does not exist or new level name exists")
    else move levelName newlevel

theorem getLevelByName_bind {β : Type} (levelName : String)
    (f : Level × Option String → Program BucketOp Reply β) :
    getLevelByName levelName >>= f = .call (.get levelName) fun reply => match reply.err with
      | some err => f ({}, some (errorf "Couldn't get the level by the name" " - " reply err))
      | none => f (reply.content, none) := by
  unfold getLevelByName
  rw [Program.perform_bind, Program.call_bind]
  congr 1
  funext reply
  cases reply.err <;> rfl

theorem updateLevel_rename {levelName : String} {newlevel : Level} (renames : levelName ≠ newlevel.name) :
    updateLevel levelName newlevel = .call (.get levelName) (checkNew levelName newlevel) := by
  unfold updateLevel
  rw [if_neg renames, getLevelByName_bind]
  congr 1
  funext first
  unfold checkNew
  cases first.err with
  | some err =>
    simp only [getLevelByName_bind]
    congr 1
    funext second
    cases second.err <;> simp
  | none =>
    simp only [getLevelByName_bind]
    congr 1
    funext second
    cases second.err with
    | none => simp
    | some err =>
      simp only [ne_eq, not_true_eq_false, reduceCtorEq, or_self, if_false, move, deleteLevel, Program.perform_bind,
        Program.call_bind]
      rfl

theorem updateLevel_same {levelName : String} {newlevel : Level} (same : levelName = newlevel.name) :
    updateLevel levelName newlevel = .call (.replace levelName newlevel) fun reply =>
      .done (reply.err.map (errorf "Couldn't update the level" " - " reply)) := by
  unfold updateLevel
  rw [if_pos same, Program.perform_bind]
  rfl

end CouchBaseRepository

end ArRobotCode.Server
