import Mathlib.Data.Finmap
import ArRobotCode.Library.Programs

namespace ArRobotCode.Server

open Programs

structure Tile where
  type : Int
deriving DecidableEq, Repr

structure Level where
  name : String := ""
  width : Int := 0
  height : Int := 0
  tiles : List Tile := []
deriving DecidableEq, Repr

abbrev Bucket := Finmap fun _ : String => Level

inductive BucketOp where
  | get (key : String)
  | insert (key : String) (level : Level)
  | replace (key : String) (level : Level)
  | remove (key : String)
  | createPrimaryIndex (customName : String) (ignoreIfExists deferred : Bool)
deriving DecidableEq, Repr

structure Reply where
  cas : Nat := 0
  err : Option String := none
  content : Level := {}
deriving DecidableEq, Repr

/-- What the client library chooses: the texts of its errors and the versions it reports. -/
structure Gocb where
  keyNotFound : String
  keyExists : String
  cas : BucketOp → Bucket → Nat

namespace Gocb

def serve (gocb : Gocb) (op : BucketOp) (b : Bucket) : Reply × Bucket :=
  match op with
  | .get key => match b.lookup key with
    | some level => ({ cas := gocb.cas op b, content := level }, b)
    | none => ({ err := some gocb.keyNotFound }, b)
  | .insert key level =>
    if key ∈ b then ({ err := some gocb.keyExists }, b) else ({ cas := gocb.cas op b }, b.insert key level)
  | .replace key level =>
    if key ∈ b then ({ cas := gocb.cas op b }, b.insert key level) else ({ err := some gocb.keyNotFound }, b)
  | .remove key =>
    if key ∈ b then ({ cas := gocb.cas op b }, b.erase key) else ({ err := some gocb.keyNotFound }, b)
  | .createPrimaryIndex _ _ _ => ({}, b)

def serveFaulty (gocb : Gocb) (faults : Nat → Option String) (op : BucketOp) (s : Nat × Bucket) :
    Reply × Nat × Bucket :=
  match faults s.1 with
  | some err => ({ err := some err }, s.1 + 1, s.2)
  | none => ((gocb.serve op s.2).1, s.1 + 1, (gocb.serve op s.2).2)

def plain : Gocb := { keyNotFound := "key not found", keyExists := "key already exists", cas := fun _ _ => 0 }

end Gocb

/-- `fmt.Errorf` with an operation's version number and error. The number has no format for the verb `%s`. -/
def errorf (what separator : String) (reply : Reply) (err : String) : String :=
  s!"{what}: %!s(gocb.Cas={reply.cas}){separator}{err}\n"

namespace CouchBaseRepository

def getLevelByName (levelName : String) : Program BucketOp Reply (Level × Option String) := do
  let reply ← .perform (.get levelName)
  match reply.err with
  | some err => return ({}, some (errorf "Couldn't get the level by the name" " - " reply err))
  | none => return (reply.content, none)

def addLevel (level : Level) : Program BucketOp Reply (Option String) := do
  let _ ← .perform (.createPrimaryIndex "levelsByName" true false)
  let reply ← .perform (.insert level.name level)
  return reply.err.map (errorf "Couldn't add the level" "-" reply)

def deleteLevel (levelName : String) : Program BucketOp Reply (Option String) := do
  let reply ← .perform (.remove levelName)
  return reply.err.map (errorf "Couldn't delete the level" " - " reply)

def updateLevel (levelName : String) (newlevel : Level) : Program BucketOp Reply (Option String) := do
  if levelName = newlevel.name then
    let reply ← .perform (.replace levelName newlevel)
    return reply.err.map (errorf "Couldn't update the level" " - " reply)
  else
    let (_, err1) ← getLevelByName levelName
    let (_, err2) ← getLevelByName newlevel.name
    -- Any error, also a lost connection, counts as a missing level.
    if err1 ≠ none ∨ err2 = none then
      return some "Couldn't update the level: old level name does not exist or new level name exists"
    match ← deleteLevel levelName with
    | some err => return some s!"Couldn't update the level: {err}\n"
    | none =>
      -- From here on the level is under neither name until the insertion.
      let err ← addLevel newlevel
      return err.map fun err => s!"Couldn't update the level: {err}\n"

end CouchBaseRepository

end ArRobotCode.Server
