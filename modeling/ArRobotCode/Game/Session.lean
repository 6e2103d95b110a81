import ArRobotCode.Game.EngineSteps

namespace ArRobotCode

open Swift Trapping

variable [Graphemes]

/-- The game screen: the two subjects are kept as the values that their subscribers have not received yet. -/
structure GameSession where
  engineAR : EngineAR
  instructionsBehaviourSubject : List String := [""]
  eventsBehaviourSubject : List String := [""]
  sentToJS : List String := []
deriving DecidableEq, Repr

namespace GameSession

def viewDidLoad (level : DataLevel) (player : List PlayerCommand) : Except Trap GameSession := do
  let engineAR ← EngineAR.init level player
  return { engineAR := engineAR.restarted }

def possibleInstructions : List String :=
  ["run", "moveFront", "moveFrontIf", "moveBack", "moveBackIf", "turnLeft", "turnLeftIf", "turnRight", "turnRightIf"]

def possibleEvents : List String := ["run", "stop"]

def userContentController (response : String) : Method GameSession Unit := do
  let responseSplit := split response ' '
  if responseSplit.length = 0 then return
  -- A message of one word traps here.
  let name ← subscript responseSplit 1
  if name ∈ possibleInstructions then
    modify fun s => { s with instructionsBehaviourSubject := s.instructionsBehaviourSubject ++ [response] }
  -- "run" goes to both subjects.
  if name ∈ possibleEvents then
    modify fun s => { s with eventsBehaviourSubject := s.eventsBehaviourSubject ++ [response] }

def onEngine (x : Method EngineAR Unit) : Method GameSession Unit :=
  within (·.engineAR) (fun e s => { s with engineAR := e }) x

def glowBlock (block glows : String) : Method GameSession Unit := modify fun s =>
  { s with sentToJS := s.sentToJS ++ ["Blockly.getMainWorkspace().glowBlock(\"" ++ block ++ "\", " ++ glows ++ ");"] }

def consumeEvent : Method GameSession Unit := do
  match (← get).eventsBehaviourSubject with
  | [] => return
  | event :: later =>
    modify fun s => { s with eventsBehaviourSubject := later }
    let evSplit := split event ' '
    if evSplit.length = 0 then return
    if (← subscript evSplit 1) = "stop" then onEngine EngineAR.stopLevel

def instruct (evSplit : List String) : Method EngineAR Unit := do
  match ← subscript evSplit 1 with
  | "run" => EngineAR.resetLevel
  | "moveFront" => EngineAR.moveFront
  | "moveFrontIf" => EngineAR.moveFrontIf (← subscript evSplit 2)
  | "moveBack" => EngineAR.moveBack
  | "moveBackIf" => EngineAR.moveBackIf (← subscript evSplit 2)
  | "turnLeft" => EngineAR.turnLeft
  | "turnLeftIf" => EngineAR.turnLeftIf (← subscript evSplit 2)
  | "turnRight" => EngineAR.turnRight
  | "turnRightIf" => EngineAR.turnRightIf (← subscript evSplit 2)
  | _ => return

/-- The part of the instructions subscriber after its guards; the pause of a second is left out. -/
def carryOut (evSplit : List String) : Method GameSession Unit := do
  let block ← subscript evSplit 0
  glowBlock block "true"
  onEngine (instruct evSplit)
  glowBlock block "false"
  onEngine (EngineAR.setStatus "")

def consumeInstruction : Method GameSession Unit := do
  match (← get).instructionsBehaviourSubject with
  | [] => return
  | event :: later =>
    modify fun s => { s with instructionsBehaviourSubject := later }
    let evSplit := split event ' '
    if evSplit.length = 0 then return
    if (← get).engineAR.isFinished then
      if (← subscript evSplit 1) ≠ "run" then return
    carryOut evSplit

end GameSession

inductive SessionAction where
  | post (response : String)
  | consumeEvent
  | consumeInstruction
deriving DecidableEq, Repr

namespace GameSession

def perform : SessionAction → Method GameSession Unit
  | .post response => userContentController response
  | .consumeEvent => consumeEvent
  | .consumeInstruction => consumeInstruction

def posted (schedule : List SessionAction) : List String :=
  schedule.filterMap fun
    | .post response => some response
    | _ => none

def IsRun (message : String) : Prop := at? (split message ' ') 1 = some "run"

def IsStop (message : String) : Prop := at? (split message ' ') 1 = some "stop"

instance (message : String) : Decidable (IsRun message) := inferInstanceAs (Decidable (_ = _))

instance (message : String) : Decidable (IsStop message) := inferInstanceAs (Decidable (_ = _))

end GameSession

end ArRobotCode
