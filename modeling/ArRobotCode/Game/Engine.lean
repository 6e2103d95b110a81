import ArRobotCode.Library.GridWalk
import ArRobotCode.Library.Triples
import ArRobotCode.Entities.DataLevel
import ArRobotCode.Game.Player

namespace ArRobotCode

open Swift

structure Position where
  x : Int
  y : Int
deriving DecidableEq, Repr

/-- The subject, the player and the status view are kept as the values and calls they have received. -/
structure EngineAR where
  level : DataLevel
  eventsBehaviourSubject : List String := [""]
  playerController : List PlayerCommand
  status : List String := []
  valid : Bool := true
  done : Bool := false
  startPosition : Position := ⟨0, 0⟩
  crtPosition : Position := ⟨0, 0⟩
  crtDXDY : Int := 0
deriving DecidableEq, Repr

namespace EngineAR

def dxdy : List Position := [⟨-1, 0⟩, ⟨0, 1⟩, ⟨1, 0⟩, ⟨0, -1⟩]

def vectorCoordinatesToMatrix (level : DataLevel) (i : Int) : Except Trap Position :=
  if level.width = 0 then throw .divisionByZero
  else pure ⟨i.tdiv level.width, i.tmod level.width⟩

def matrixCoordinatesToVector (i j : Int) : Method EngineAR Int := do
  let row ← checked (i * (← get).level.width)
  checked (row + j)

def init (level : DataLevel) (player : List PlayerCommand) : Except Trap EngineAR := do
  -- the range 0...count - 1 cannot be formed for an empty list
  if level.tiles.length = 0 then throw .invalidRange
  match level.tiles.findIdx? (·.type = TypeOfTile.start.rawValue) with
  | some i => do
    let start ← vectorCoordinatesToMatrix level i
    return { level, playerController := player, startPosition := start, crtPosition := start }
  | none => return { level, playerController := player }

def isFinished (e : EngineAR) : Bool := !e.valid || e.done

def setStatus (text : String) : Method EngineAR Unit := modify fun e => { e with status := e.status ++ [text] }

def command (c : PlayerCommand) : Method EngineAR Unit :=
  modify fun e => { e with playerController := e.playerController ++ [c] }

def publish (event : String) : Method EngineAR Unit :=
  modify fun e => { e with eventsBehaviourSubject := e.eventsBehaviourSubject ++ [event] }

def crtTileType : Method EngineAR Int := do
  let e ← get
  let crtVectorPos ← matrixCoordinatesToVector e.crtPosition.x e.crtPosition.y
  -- The index is not compared with the number of tiles first.
  return (← subscript e.level.tiles crtVectorPos).type

def checkIfInvalid : Method EngineAR Bool := do
  let e ← get
  if e.crtPosition.x < 0 ∨ e.crtPosition.x ≥ e.level.height ∨
      e.crtPosition.y < 0 ∨ e.crtPosition.y ≥ e.level.width then
    modify fun e => { e with valid := false }
    publish "invalid"
    return true
  if (← crtTileType) = TypeOfTile.free.rawValue then
    modify fun e => { e with valid := false }
    publish "invalid"
    return true
  return false

def checkIfDone : Method EngineAR Bool := do
  if (← crtTileType) = TypeOfTile.finish.rawValue then
    modify fun e => { e with done := true }
    publish "done"
    return true
  return false

def judge : Method EngineAR Unit := do
  if ← checkIfInvalid then return
  let _ ← checkIfDone

/-- The shape of `moveFront` and `moveBack`: the position is written first and judged afterwards. -/
def advance (text : String) (order : PlayerCommand) (shift : Int → Int → Int) : Method EngineAR Unit := do
  if (← get).isFinished then return
  setStatus text
  command order
  let direction ← subscript dxdy (← get).crtDXDY
  let x ← checked (shift (← get).crtPosition.x direction.x)
  modify fun e => { e with crtPosition := { e.crtPosition with x := x } }
  let y ← checked (shift (← get).crtPosition.y direction.y)
  modify fun e => { e with crtPosition := { e.crtPosition with y := y } }
  judge

def moveFront : Method EngineAR Unit := advance "Moving in front" .moveFront (· + ·)

def moveBack : Method EngineAR Unit := advance "Moving back" .moveBack (· - ·)

def turnLeft : Method EngineAR Unit := do
  if (← get).isFinished then return
  setStatus "Moving left"
  command .turnLeft
  let lower ← checked ((← get).crtDXDY - 1)
  modify fun e => { e with crtDXDY := lower.tmod 4 }
  -- The remainder of -1 is -1.
  if (← get).crtDXDY = -1 then
    modify fun e => { e with crtDXDY := 3 }

def turnRight : Method EngineAR Unit := do
  if (← get).isFinished then return
  setStatus "Moving right"
  command .turnRight
  let upper ← checked ((← get).crtDXDY + 1)
  modify fun e => { e with crtDXDY := upper.tmod 4 }

/-- The shape of the four If variants: guard, tile access, then the forced parse of the code. -/
def ifTile (action : Method EngineAR Unit) (refusal ifTileType : String) : Method EngineAR Unit := do
  if (← get).isFinished then return
  let type ← crtTileType
  if type = (← checked ((← unwrap (parseInt ifTileType)) + 3)) then action
  else setStatus refusal

def moveFrontIf : String → Method EngineAR Unit :=
  ifTile moveFront "Not moving front, tile is of different type"

def moveBackIf : String → Method EngineAR Unit :=
  ifTile moveBack "Not moving back, tile is of different type"

def turnLeftIf : String → Method EngineAR Unit :=
  ifTile turnLeft "Not turning left, tile is of different type"

def turnRightIf : String → Method EngineAR Unit :=
  ifTile turnRight "Not turning right, tile is of different type"

def stopLevel : Method EngineAR Unit := do
  setStatus "Finished..."
  modify fun e => { e with valid := false }

def resetLevel : Method EngineAR Unit := do
  setStatus "Starting..."
  modify fun e => { e with crtPosition := e.startPosition, crtDXDY := 0, valid := true, done := false }
  command .reset

end EngineAR

inductive Motion where
  | moveFront | moveBack | turnLeft | turnRight
deriving DecidableEq, Repr

inductive Call where
  | plain (motion : Motion)
  | conditional (motion : Motion) (ifTileType : String)
deriving DecidableEq, Repr

inductive Operation where
  | call (call : Call)
  | stopLevel
  | resetLevel
deriving DecidableEq, Repr

namespace EngineAR

def performMotion : Motion → Method EngineAR Unit
  | .moveFront => moveFront
  | .moveBack => moveBack
  | .turnLeft => turnLeft
  | .turnRight => turnRight

def performCall : Call → Method EngineAR Unit
  | .plain motion => performMotion motion
  | .conditional .moveFront code => moveFrontIf code
  | .conditional .moveBack code => moveBackIf code
  | .conditional .turnLeft code => turnLeftIf code
  | .conditional .turnRight code => turnRightIf code

def perform : Operation → Method EngineAR Unit
  | .call c => performCall c
  | .stopLevel => stopLevel
  | .resetLevel => resetLevel

end EngineAR

end ArRobotCode
