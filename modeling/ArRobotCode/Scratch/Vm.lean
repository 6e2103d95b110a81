import ArRobotCode.Library.Triples
import ArRobotCode.Scratch.Thread

namespace ArRobotCode.Scratch

open Trapping

inductive Fault where
  | typeError
  | outOfFuel
deriving DecidableEq

/-- What the VM learns from outside: the value of a reporter, whether a moved sprite asks for a redraw, whether the
    time of a thread in warp mode is up. -/
structure Answer where
  reported : JsValue := .undefined
  redraws : Bool := false
  timeIsUp : Bool := false

structure Project where
  executableTargets : List Nat
  blocks : Nat → Blocks
  flyoutBlocks : Blocks := {}
  monitorBlocks : Blocks := {}
  /-- The monitored blocks with their targets. -/
  monitored : List (BlockId × Nat) := []

def Project.allScripts (project : Project) : List (BlockId × Nat) :=
  project.executableTargets.reverse.flatMap fun target => (project.blocks target).scripts.map fun top => (top, target)

/-- The execution of a robot block by a thread, with the threads at that moment and the message. -/
structure Execution where
  threads : List Thread
  index : Nat
  id : BlockId
  block : RobotBlock
  message : String
deriving DecidableEq

structure Vm where
  project : Project
  threads : List Thread := []
  redrawRequested : Bool := false
  turboMode : Bool := false
  posted : List String := []
  /-- The record of what the robot blocks did; the VM never reads it. -/
  executions : List Execution := []
  /-- The threads whose promises have not resolved yet. -/
  pending : List Nat := []
  serial : Nat := 0
  world : Nat → Answer
  moment : Nat := 0

/-- A fault leaves the VM as it was then. -/
abbrev Js (α : Type) := EStateM Fault Vm α

namespace Vm

def create (project : Project) (world : Nat → Answer) : Vm := { project, world }

def ask : Js Answer := do
  let vm ← get
  set { vm with moment := vm.moment + 1 }
  return vm.world vm.moment

def thread (i : Nat) : Js Thread := do
  match (← get).threads[i]? with
  | some t => return t
  | none => throw .typeError

def updateThread (i : Nat) (f : Thread → Thread) : Js Unit :=
  modify fun vm => { vm with threads := vm.threads.modify i f }

def blocksOf (t : Thread) : Js Blocks := do
  return (← get).project.blocks t.target

def findBlock (vm : Vm) (t : Thread) (id : BlockId) : Option Block :=
  let blockContainer := if t.updateMonitor then vm.project.monitorBlocks else vm.project.blocks t.target
  (blockContainer.getBlock id).or (vm.project.flyoutBlocks.getBlock id)

def readInput (block : Block) (name : String) : Js JsValue := do
  match block.input name with
  | none => return .undefined
  | some (.value value) => return value
  | some .reporter => return (← ask).reported

def warpTimeIsUp (frame : Frame) : Js Bool := do
  if frame.warpMode then
    return (← ask).timeIsUp
  else
    return false

def givesWay (frame : Frame) : Js Bool := do
  if frame.warpMode then
    return (← ask).timeIsUp
  else
    return true

def postMessage (message : String) : Js Unit :=
  modify fun vm => { vm with posted := vm.posted ++ [message] }

def record (execution : Execution) : Js Unit :=
  modify fun vm => { vm with executions := vm.executions ++ [execution] }

section Threads

def pushThread (top : BlockId) (target : Nat) (stackClick updateMonitor : Bool) : Js Unit :=
  modify fun vm => { vm with
    threads := vm.threads ++ [.create vm.serial top target stackClick updateMonitor]
    serial := vm.serial + 1 }

def restartThread (i : Nat) : Js Unit :=
  modify fun vm => { vm with
    threads := vm.threads.modify i fun t => .create vm.serial t.topBlock t.target t.stackClick t.updateMonitor
    serial := vm.serial + 1 }

def stopAll : Js Unit :=
  modify fun vm => { vm with threads := vm.threads.map .stop }

def stopForTarget (target : Nat) (exception : Option Nat) : Js Unit :=
  modify fun vm => { vm with
    threads := vm.threads.mapIdx fun i t => if t.target = target ∧ exception ≠ some i then t.stop else t }

def toggleScript (top : BlockId) (target : Nat) (stackClick : Bool) : Js Unit := do
  match (← get).threads.findIdx? (fun t => t.topBlock = top ∧ t.status ≠ .done) with
  | some i => updateThread i .stop
  | none => pushThread top target stackClick false

def addMonitorScript (top : BlockId) (target : Nat) : Js Unit := do
  if (← get).threads.any (fun t => t.topBlock = top ∧ t.status ≠ .done ∧ t.updateMonitor) then
    return ()
  pushThread top target false true

def pushMonitors : List (BlockId × Nat) → Js Unit :=
  runAll fun (top, target) => addMonitorScript top target

end Threads

variable [Opcodes]

/-- One script of `startHats`, for the hat of the green flag. -/
def startHat (top : BlockId) (target : Nat) : Js Unit := do
  match ((← get).project.blocks target).getBlock top with
  | none => throw .typeError
  | some _ =>
    if Opcodes.opcode top ≠ .eventWhenflagclicked then
      return ()
    postMessage "00 run"
    match (← get).threads.findIdx? (fun t => t.topBlock = top ∧ !t.stackClick ∧ t.target = target) with
    | some i => restartThread i
    | none => pushThread top target false false

def startHats : List (BlockId × Nat) → Js Unit :=
  runAll fun (top, target) => startHat top target

def greenFlag : Js Unit := do
  stopAll
  startHats (← get).project.allScripts

section Primitives

def startBranch (i : Nat) (branchNum : Nat) (isLoop : Bool) : Js Unit := do
  let blocks ← blocksOf (← thread i)
  updateThread i (.stepToBranch blocks branchNum isLoop)

def loopTimes (i : Nat) (times : Count) : Js Unit := do
  let frame := (← thread i).peekStackFrame
  let loopCounter := (frame.loopCounter.getD times).decrement
  updateThread i (.updateFrame ({ · with loopCounter := some loopCounter }))
  if loopCounter.nonnegative then
    startBranch i 1 true

def stepToProcedure (i : Nat) (proccode : String) : Js Unit := do
  let t ← thread i
  let blocks ← blocksOf t
  match blocks.getProcedureDefinition proccode with
  | none => return ()
  | some (definition, mutation) =>
    match Thread.isRecursiveCall blocks proccode 5 t.stack.tail with
    | none => throw .typeError
    | some isRecursive =>
      updateThread i (.pushStack (some definition))
      if ← warpTimeIsUp t.peekStackFrame then
        updateThread i (.setStatus .yield)
      else if mutation.warp then
        updateThread i (.updateFrame ({ · with warpMode := true }))
      else if isRecursive then
        updateThread i (.setStatus .yield)

def call (i : Nat) (proccode : String) : Js Unit := do
  let t ← thread i
  let blocks ← blocksOf t
  if t.peekStackFrame.executed ∨ blocks.getProcedureDefinition proccode = none then
    return ()
  updateThread i (.updateFrame ({ · with executed := true }))
  stepToProcedure i proccode

end Primitives

end Vm

/-- The entry of the stack that a robot block takes for itself. -/
def RobotBlock.entry (block : RobotBlock) (t : Thread) : Option (Option BlockId) :=
  match block with
  | turnRight | turnLeft => t.stack.getLast?.map (·.block)
  | moveSteps | moveStepsBack | movestepsIf | movestepsBackIf | turnleftIf | turnrightIf =>
    t.stack.head?.map (·.block)

def RobotBlock.movesTarget : RobotBlock → Bool
  | moveSteps | moveStepsBack | turnRight | turnLeft => true
  | movestepsIf | movestepsBackIf | turnleftIf | turnrightIf => false

namespace Vm

variable [JavaScript]

def instruct (i : Nat) (id : BlockId) (block : RobotBlock) (value : JsValue) : Js Unit := do
  let vm ← get
  match vm.threads with
  | [] => throw .typeError
  | first :: _ =>
    match block.message (printedEntry (block.entry first)) value with
    | none => throw .typeError
    | some message =>
      postMessage message
      record ⟨vm.threads, i, id, block, message⟩
      if block.movesTarget then
        let answer ← ask
        modify fun vm => { vm with redrawRequested := vm.redrawRequested || answer.redraws }

variable [Opcodes]

def primitive (i : Nat) (id : BlockId) (block : Block) : Js Unit := do
  match Opcodes.opcode id with
  | .eventWhenflagclicked | .proceduresDefinition | .other => return ()
  | .robot robot => instruct i id robot (← readInput block robot.input)
  | .controlRepeat => loopTimes i (.round (Cast.toNumber (← readInput block "TIMES")))
  | .controlForever => loopTimes i (.finite 500)
  | .controlRepeatUntil =>
    if !Cast.toBoolean (← readInput block "CONDITION") then
      startBranch i 1 true
  | .controlWait =>
    updateThread i .waitForPromise
    let serial := (← thread i).serial
    modify fun vm => { vm with pending := serial :: vm.pending }
  | .controlWaitUntil =>
    if !Cast.toBoolean (← readInput block "CONDITION") then
      updateThread i (.setStatus .yield)
  | .controlIf =>
    if Cast.toBoolean (← readInput block "CONDITION") then
      startBranch i 1 false
  | .controlIfElse =>
    if Cast.toBoolean (← readInput block "CONDITION") then
      startBranch i 1 false
    else
      startBranch i 2 false
  | .controlStop =>
    let t ← thread i
    match block.stopOption with
    | .all => stopAll
    | .otherScripts => stopForTarget t.target (some i)
    | .thisScript => updateThread i (.stopThisScript (← blocksOf t))
  | .proceduresCall =>
    match block.mutation with
    | none => throw .typeError
    | some mutation => call i mutation.proccode

def execute (i : Nat) : Js Unit := do
  let t ← thread i
  match t.peekStack with
  | none => return ()
  | some id =>
    match (← get).findBlock t id with
    | none => updateThread i .retire
    | some block => primitive i id block

/-- Pops the empty entries; whether there is a block to go on with. -/
def unwind (i : Nat) : Nat → Js Bool
  | 0 => throw .outOfFuel
  | depth + 1 => do
    if (← thread i).peekStack.isSome then
      return true
    else
      updateThread i .popStack
      let t ← thread i
      match t.stack with
      | [] =>
        updateThread i (.setStatus .done)
        return false
      | level :: _ =>
        if level.frame.isLoop then
          if ← givesWay level.frame then
            return false
          else
            unwind i depth
        else
          updateThread i (.goToNextBlock (← blocksOf t))
          unwind i depth

def executeBlocks (i : Nat) : Nat → Js Unit
  | 0 => throw .outOfFuel
  | fuel + 1 => do
    let t ← thread i
    match t.peekStack with
    | none => return ()
    | some currentBlockId =>
      execute i
      let after ← thread i
      match after.status with
      | .yield =>
        updateThread i (.setStatus .running)
        if ← givesWay t.peekStackFrame then
          return ()
        else
          executeBlocks i fuel
      | .promiseWait => return ()
      | .running | .done =>
        updateThread i (.switchFrom currentBlockId (← blocksOf after))
        if ← unwind i (after.stack.length + 1) then
          executeBlocks i fuel

def stepThread (fuel : Nat) (i : Nat) : Js Unit := do
  updateThread i .popNull
  executeBlocks i fuel

def stepReady (fuel : Nat) (i : Nat) (status : Status) : Js Unit :=
  if status = .running ∨ status = .yield then stepThread fuel i else pure ()

/-- Steps a thread once; whether it is running and whether it has finished. A killed thread that is visited twice
    is left alone the second time. -/
def visit (fuel : Nat) (i : Nat) : Js (Bool × Bool) := do
  let t ← thread i
  if t.finished then
    return (false, true)
  else
    stepReady fuel i t.status
    let after ← thread i
    return (after.status = .running, after.finished)

/-- The visits to `n` threads from the `i`-th on: whether one is running and whether one has finished. -/
def visitFrom (fuel : Nat) (i : Nat) : Nat → Js (Bool × Bool)
  | 0 => return (false, false)
  | n + 1 => do
    let (active, stopped) ← visit fuel i
    let (othersActive, othersStopped) ← visitFrom fuel (i + 1) n
    return (active || othersActive, stopped || othersStopped)

def removeStopped (stoppedThread : Bool) (vm : Vm) : Vm :=
  if stoppedThread then { vm with threads := vm.threads.filter (!·.finished) } else vm

def stepThreads (fuel : Nat) (numActiveThreads : Bool) : Nat → Js Unit
  | 0 => return ()
  | budget + 1 => do
    let vm ← get
    if !vm.threads.isEmpty ∧ numActiveThreads ∧ (vm.turboMode ∨ !vm.redrawRequested) then
      let (active, stoppedThread) ← visitFrom fuel 0 vm.threads.length
      modify (removeStopped stoppedThread)
      stepThreads fuel active budget

/-- One tick: `fuel` bounds the executions of a thread in a row, `budget` the passes for which there is time. -/
def tick (fuel budget : Nat) : Js Unit := do
  modify fun vm => { vm with threads := vm.threads.filter (!·.isKilled), redrawRequested := false }
  pushMonitors (← get).project.monitored
  stepThreads fuel true budget

def promiseResolved (serial : Nat) : Js Unit :=
  modify fun vm =>
    if serial ∈ vm.pending then
      { vm with
        pending := vm.pending.erase serial
        threads := vm.threads.map fun t =>
          if t.serial = serial then t.promiseResolved (vm.project.blocks t.target) else t }
    else vm

inductive Event where
  | greenFlag
  | stopAll
  | toggleScript (top : BlockId) (target : Nat) (stackClick : Bool)
  | stopForTarget (target : Nat)
  | tick (fuel budget : Nat)
  | promiseResolved (serial : Nat)
  | edit (project : Project)
  | setTurboMode (turboMode : Bool)

def perform : Event → Js Unit
  | .greenFlag => greenFlag
  | .stopAll => stopAll
  | .toggleScript top target stackClick => toggleScript top target stackClick
  | .stopForTarget target => stopForTarget target none
  | .tick fuel budget => tick fuel budget
  | .promiseResolved serial => promiseResolved serial
  | .edit project => modify fun vm => { vm with project }
  | .setTurboMode turboMode => modify fun vm => { vm with turboMode }

def after (vm : Vm) : List Event → Vm
  | [] => vm
  | event :: events => after (final (perform event) vm) events

end Vm

end ArRobotCode.Scratch
