import ArRobotCode.Scratch.Instructions

namespace ArRobotCode.Scratch

inductive Opcode where
  | eventWhenflagclicked
  | robot (block : RobotBlock)
  | controlRepeat | controlForever | controlRepeatUntil
  | controlWait | controlWaitUntil
  | controlIf | controlIfElse
  | controlStop
  | proceduresDefinition | proceduresCall
  /-- Any other block of the toolbox: none of them touches the threads. -/
  | other
deriving DecidableEq

/-- A block keeps its opcode for life. -/
class Opcodes where
  opcode : BlockId → Opcode

inductive Input where
  | value (value : JsValue)
  /-- A plugged-in reporter, evaluated anew at each execution. -/
  | reporter

inductive StopOption where
  | all | otherScripts | thisScript
deriving DecidableEq

structure Mutation where
  proccode : String
  warp : Bool

structure Block where
  inputs : List (String × Input) := []
  next : Option BlockId := none
  substack : Option BlockId := none
  substack2 : Option BlockId := none
  stopOption : StopOption := .all
  /-- Of a call, or of the prototype in a definition. -/
  mutation : Option Mutation := none

def Block.input (block : Block) (name : String) : Option Input :=
  (block.inputs.find? (·.1 = name)).map (·.2)

structure Blocks where
  blocks : List (BlockId × Block) := []
  scripts : List BlockId := []

namespace Blocks

def getBlock (blocks : Blocks) (id : BlockId) : Option Block :=
  (blocks.blocks.find? (·.1 = id)).map (·.2)

def getNextBlock (blocks : Blocks) (id : BlockId) : Option BlockId := do
  (← blocks.getBlock id).next

def getBranch (blocks : Blocks) (id : BlockId) (branchNum : Nat) : Option BlockId := do
  let block ← blocks.getBlock id
  if branchNum > 1 then block.substack2 else block.substack

def getProcedureDefinition [Opcodes] (blocks : Blocks) (name : String) : Option (BlockId × Mutation) :=
  blocks.blocks.findSome? fun (id, block) => do
    let mutation ← block.mutation
    if Opcodes.opcode id = .proceduresDefinition ∧ mutation.proccode = name then some (id, mutation) else none

end Blocks

structure Frame where
  isLoop : Bool := false
  warpMode : Bool := false
  loopCounter : Option Count := none
  executed : Bool := false
deriving DecidableEq

def Frame.reuse (frame : Frame) : Frame := { warpMode := frame.warpMode }

/-- An entry of the stack, null for an empty branch, with its frame. -/
structure Level where
  block : Option BlockId
  frame : Frame := {}
deriving DecidableEq

inductive Status where
  | running | promiseWait | yield | done
deriving DecidableEq

structure Thread where
  /-- Tells apart the threads that were ever started. -/
  serial : Nat
  topBlock : BlockId
  target : Nat
  stackClick : Bool
  updateMonitor : Bool
  /-- Innermost first. -/
  stack : List Level
  status : Status := .running
  isKilled : Bool := false
deriving DecidableEq

namespace Thread

def create (serial : Nat) (top : BlockId) (target : Nat) (stackClick updateMonitor : Bool) : Thread :=
  { serial, topBlock := top, target, stackClick, updateMonitor, stack := [⟨some top, {}⟩] }

def peekStack (t : Thread) : Option BlockId :=
  match t.stack with
  | [] => none
  | level :: _ => level.block

def peekStackFrame (t : Thread) : Frame :=
  match t.stack with
  | [] => {}
  | level :: _ => level.frame

def updateFrame (f : Frame → Frame) (t : Thread) : Thread :=
  match t.stack with
  | [] => t
  | level :: rest => { t with stack := { level with frame := f level.frame } :: rest }

/-- The new frame inherits the warp mode of the one below it. -/
def pushStack (id : Option BlockId) (t : Thread) : Thread :=
  { t with stack := ⟨id, { warpMode := t.peekStackFrame.warpMode }⟩ :: t.stack }

def popStack (t : Thread) : Thread :=
  { t with stack := t.stack.tail }

def reuseStackForNextBlock (id : Option BlockId) (t : Thread) : Thread :=
  match t.stack with
  | [] => t
  | level :: rest => { t with stack := ⟨id, level.frame.reuse⟩ :: rest }

def goToNextBlock (blocks : Blocks) (t : Thread) : Thread :=
  t.reuseStackForNextBlock (t.peekStack.bind blocks.getNextBlock)

def stepToBranch (blocks : Blocks) (branchNum : Nat) (isLoop : Bool) (t : Thread) : Thread :=
  (t.updateFrame ({ · with isLoop })).pushStack (t.peekStack.bind (blocks.getBranch · branchNum))

/-- Goes on to the next block if the top is still the block that was executed. -/
def switchFrom (currentBlockId : BlockId) (blocks : Blocks) (t : Thread) : Thread :=
  if t.peekStack = some currentBlockId then t.goToNextBlock blocks else t

def popNull (t : Thread) : Thread :=
  if t.peekStack = none then t.popStack else t

def setStatus (status : Status) (t : Thread) : Thread := { t with status }

/-- The frames that a retired thread keeps in the source are never read again. -/
def retire (t : Thread) : Thread :=
  { t with stack := [], status := .done }

def stop (t : Thread) : Thread :=
  { t.retire with isKilled := true }

def waitForPromise (t : Thread) : Thread :=
  if t.status = .running then t.setStatus .promiseWait else t

def finished (t : Thread) : Bool :=
  t.stack.isEmpty || t.status = .done

section Procedures

variable [Opcodes]

def isCall (blocks : Blocks) (id : BlockId) : Bool :=
  (blocks.getBlock id).isSome && Opcodes.opcode id = .proceduresCall

/-- Pops down to a call or to a null entry. -/
def stopThisScript (blocks : Blocks) (t : Thread) : Thread :=
  let stack := t.stack.dropWhile fun level => level.block.any fun id => !isCall blocks id
  if stack.isEmpty then { t with stack, status := .done } else { t with stack }

/-- Looks for the call below the top; none stands for the TypeError of an entry that is no block. -/
def isRecursiveCall (blocks : Blocks) (proccode : String) : Nat → List Level → Option Bool
  | _, [] => some false
  | callCount, level :: below => do
    let id ← level.block
    let block ← blocks.getBlock id
    if Opcodes.opcode id = .proceduresCall ∧ block.mutation.map (·.proccode) = some proccode then some true
    else match callCount with
      | 0 => some false
      | callCount + 1 => isRecursiveCall blocks proccode callCount below

end Procedures

def afterPromise (blocks : Blocks) : List Level → List Level
  | [] => [⟨none, {}⟩]
  | popped :: rest =>
    match popped.block with
    | none => rest
    | some id =>
      match blocks.getNextBlock id, rest with
      | some next, _ => ⟨some next, { warpMode := (rest.head?.map (·.frame.warpMode)).getD false }⟩ :: rest
      | none, [] => [⟨none, {}⟩]
      | none, parent :: _ =>
        if parent.frame.isLoop then ⟨none, { warpMode := parent.frame.warpMode }⟩ :: rest
        else afterPromise blocks rest

def promiseResolved (blocks : Blocks) (t : Thread) : Thread :=
  { t with status := .running, stack := afterPromise blocks t.stack }

end Thread

end ArRobotCode.Scratch
