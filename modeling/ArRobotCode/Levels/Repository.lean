import ArRobotCode.Entities.DataLevel
import ArRobotCode.Swift.Sorting

namespace ArRobotCode

open Swift DocumentStore

/-- The subject is kept as the lists it has emitted, `db` as the writes sent to the `levels` collection.
    `nsuuid` are the random identifiers, of which `drawn` have been used up. -/
structure LevelsRepository where
  entities : List DataLevel := []
  entitiesSubject : List (List DataLevel) := []
  db : List (Write Json) := []
  nsuuid : Nat → String := fun _ => ""
  drawn : Nat := 0

namespace LevelsRepository

def onNext : Method LevelsRepository Unit :=
  modify fun r => { r with entitiesSubject := r.entitiesSubject ++ [r.entities] }

def send (w : Write Json) : Method LevelsRepository Unit := modify fun r => { r with db := r.db ++ [w] }

def newDataLevel : Method LevelsRepository DataLevel := fun r =>
  .ok { uuid := r.nsuuid r.drawn } { r with drawn := r.drawn + 1 }

def getAtFrom (id : String) : Int → List DataLevel → Int
  | _, [] => -1
  | at', entity :: entities => if entity.uuid = id then at' else getAtFrom id (at' + 1) entities

def getAt (id : String) : Method LevelsRepository Int := return getAtFrom id 0 (← get).entities

/-- `get(at:)`: out of range it makes up a level. -/
def getLevel (at' : Int) : Method LevelsRepository DataLevel := do
  let r ← get
  if at' < 0 ∨ at' ≥ r.entities.length then newDataLevel
  else subscript r.entities at'

def syncAddtoServer (a : DataLevel) : Method LevelsRepository Unit := send (.setData a.uuid a.asDictionary)

def syncUpdateToServer (a : DataLevel) : Method LevelsRepository Unit := send (.updateData a.uuid a.asDictionary)

def syncDeleteToServer (uuid : String) : Method LevelsRepository Unit := send (.delete uuid)

def add (a : DataLevel) : Method LevelsRepository Bool := do
  modify fun r => { r with entities := r.entities ++ [a] }
  syncAddtoServer a
  onNext
  return true

def update (a : DataLevel) : Method LevelsRepository Bool := do
  match (← get).entities.findIdx? (·.uuid = a.uuid) with
  | some i =>
    modify fun r => { r with entities := r.entities.set i a }
    onNext
    syncUpdateToServer a
    return true
  | none => return false

def triggerUpdate (at' : Int) : Method LevelsRepository Unit := do
  if at' ≥ 0 ∧ at' < (← get).entities.length then
    onNext
    syncUpdateToServer (← subscript (← get).entities at')

def deleteByName [CanonicalForm] (name : String) : Method LevelsRepository Bool := do
  match (← get).entities.findIdx? (equal ·.name name) with
  | some i =>
    let uuid := (← subscript (← get).entities i).uuid
    modify fun r => { r with entities := r.entities.eraseIdx i }
    onNext
    syncDeleteToServer uuid
    return true
  | none => return false

def deleteAt (at' : Int) : Method LevelsRepository Bool := do
  let uuid := (← subscript (← get).entities at').uuid
  modify fun r => { r with entities := r.entities.eraseIdx at'.toNat }
  onNext
  syncDeleteToServer uuid
  return true

/-- `get(at:).change()`: the object in the list changes in place, a made-up one is lost. -/
def changeInPlace (at' : Int) (change : Method DataLevel Unit) : Method LevelsRepository Unit := do
  let l ← getLevel at'
  let put (l' : DataLevel) (r : LevelsRepository) : LevelsRepository :=
    if (at? r.entities at').isSome then { r with entities := r.entities.set at'.toNat l' } else r
  within (fun _ => l) put change

variable {r : LevelsRepository} {at' : Int}

theorem run_getLevel_some {l : DataLevel} (found : at? r.entities at' = some l) :
    (getLevel at').run r = .ok l r := by
  have bounds := (at?_isSome_iff r.entities at').mp (by rw [found]; rfl)
  have inRange : ¬ (at' < 0 ∨ at' ≥ r.entities.length) := by omega
  simp only [getLevel, EStateM.run_bind, EStateM.run_get, inRange, if_false, run_subscript_of_some found]

def madeUp (r : LevelsRepository) : DataLevel := { uuid := r.nsuuid r.drawn }

theorem run_getLevel_none (missing : at? r.entities at' = none) :
    (getLevel at').run r = .ok r.madeUp { r with drawn := r.drawn + 1 } := by
  have bounds := mt (at?_isSome_iff r.entities at').mpr (by rw [missing]; decide)
  have outOfRange : at' < 0 ∨ at' ≥ r.entities.length := by omega
  simp only [getLevel, EStateM.run_bind, EStateM.run_get, outOfRange, if_true]
  rfl

theorem run_triggerUpdate_some {l : DataLevel} (found : at? r.entities at' = some l) :
    (triggerUpdate at').run r = .ok () { r with
      entitiesSubject := r.entitiesSubject ++ [r.entities]
      db := r.db ++ [.updateData l.uuid l.asDictionary] } := by
  have bounds := (at?_isSome_iff r.entities at').mp (by rw [found]; rfl)
  have inRange : at' ≥ 0 ∧ at' < r.entities.length := by omega
  simp [triggerUpdate, -bind_pure_comp, EStateM.run_bind, inRange, onNext, send, syncUpdateToServer,
    run_subscript_of_some found]

theorem run_triggerUpdate_none (missing : at? r.entities at' = none) : (triggerUpdate at').run r = .ok () r := by
  have bounds := mt (at?_isSome_iff r.entities at').mpr (by rw [missing]; decide)
  have outOfRange : ¬ (at' ≥ 0 ∧ at' < r.entities.length) := by omega
  simp only [triggerUpdate, EStateM.run_bind, EStateM.run_get, outOfRange, if_false]
  rfl

theorem run_changeInPlace_some {l : DataLevel} (found : at? r.entities at' = some l) (change : Method DataLevel Unit) :
    (changeInPlace at' change).run r = match change.run l with
      | .ok _ l' => .ok () { r with entities := r.entities.set at'.toNat l' }
      | .error trap l' => .error trap { r with entities := r.entities.set at'.toNat l' } := by
  simp only [changeInPlace, EStateM.run_bind, run_getLevel_some found, run_within, found, Option.isSome_some, if_true]
  cases change.run l <;> rfl

theorem run_changeInPlace_none (missing : at? r.entities at' = none) (change : Method DataLevel Unit) :
    (changeInPlace at' change).run r = match change.run r.madeUp with
      | .ok _ _ => .ok () { r with drawn := r.drawn + 1 }
      | .error trap _ => .error trap { r with drawn := r.drawn + 1 } := by
  simp only [changeInPlace, EStateM.run_bind, run_getLevel_none missing, run_within, missing, Option.isSome_none,
    Bool.false_eq_true, if_false]
  cases change.run r.madeUp <;> rfl

theorem run_deleteAt {l : DataLevel} (found : at? r.entities at' = some l) :
    (deleteAt at').run r = .ok true { r with
      entities := r.entities.eraseIdx at'.toNat
      entitiesSubject := r.entitiesSubject ++ [r.entities.eraseIdx at'.toNat]
      db := r.db ++ [.delete l.uuid] } := by
  simp [deleteAt, -bind_pure_comp, EStateM.run_bind, run_subscript_of_some found, onNext, syncDeleteToServer, send]

end LevelsRepository

end ArRobotCode
