import ArRobotCode.Scratch.Programs
import ArRobotCode.Scratch.Workspace
import ArRobotCode.Scratch.EntryLinks

namespace ArRobotCode.Scratch

/-- What the packages of blocks have registered: the hats, and the opcodes with a function. -/
class Packages where
  getIsHat : String → Bool
  hasFunction : String → Bool

def BlockId.ofText (text : String) : Option BlockId :=
  if legal : text ≠ "" ∧ ∀ c ∈ text.toList, c ∈ soup then some ⟨text, legal.1, legal.2⟩ else none

/-- The opcodes of which the model knows what their functions do. -/
def opcodeNamed : String → Option Opcode
  | "event_whenflagclicked" => some .eventWhenflagclicked
  | "motion_movesteps" => some (.robot .moveSteps)
  | "motion_movesteps_back" => some (.robot .moveStepsBack)
  | "motion_turnright" => some (.robot .turnRight)
  | "motion_turnleft" => some (.robot .turnLeft)
  | "sensing_movesteps_if" => some (.robot .movestepsIf)
  | "sensing_movesteps_back_if" => some (.robot .movestepsBackIf)
  | "sensing_turnleft_if" => some (.robot .turnleftIf)
  | "sensing_turnright_if" => some (.robot .turnrightIf)
  | "control_repeat" => some .controlRepeat
  | "control_forever" => some .controlForever
  | "control_repeat_until" => some .controlRepeatUntil
  | "control_wait" => some .controlWait
  | "control_wait_until" => some .controlWaitUntil
  | "control_if" => some .controlIf
  | "control_if_else" => some .controlIfElse
  | "control_stop" => some .controlStop
  | "procedures_definition" => some .proceduresDefinition
  | "procedures_call" => some .proceduresCall
  | _ => none

/-- Of a call, or of the prototype in a definition. -/
def MutationTag.procedure : MutationTag → Option Mutation
  | .object _ properties _ =>
    (properties.lookup "proccode").map fun proccode => ⟨proccode, properties.lookup "warp" = some "true"⟩

namespace Entry

/-- All inputs but the branches. -/
def getInputs (e : Entry) : List (String × Slot) :=
  e.inputs.filter fun input => !"SUBSTACK".toList.isPrefixOf input.1.toList

def getBranch (e : Entry) (inputName : String) : Option BlockId :=
  ((e.inputs.lookup inputName).bind (·.block)).bind BlockId.ofText

variable [Packages]

def definedBlockFunction (e : Entry) : Bool := e.opcode.any Packages.hasFunction

def isShadowBlock (e : Entry) : Bool :=
  !e.definedBlockFunction && e.fields.length = 1 && e.getInputs.isEmpty

def argValue (e : Entry) : Option Input :=
  if e.opcode.any Packages.getIsHat then none
  else if e.isShadowBlock then e.fields.head?.map fun field => .value (.text field.2.value)
  else if e.definedBlockFunction then some .reporter
  else none

/-- The arguments of a block: its inputs, and the fields that no input hides and that are no objects. -/
def argValues (e : Entry) (getBlock : String → Option Entry) : List (String × Input) :=
  (e.getInputs.filter (·.1 ≠ "custom_block")).filterMap
      (fun input => (((input.2.block.bind getBlock).bind argValue).map fun value => (input.1, value))) ++
    (e.fields.filter (·.1 ∉ ["VARIABLE", "LIST", "BROADCAST_OPTION"])).map fun field =>
      (field.1, .value (.text field.2.value))

def stopOption (e : Entry) : StopOption :=
  match (e.fields.lookup "STOP_OPTION").map (·.value) with
  | some "other scripts in sprite" | some "other scripts in stage" => .otherScripts
  | some "this script" => .thisScript
  | _ => .all

def procedure (e : Entry) (getBlock : String → Option Entry) : Option Mutation :=
  let prototype := ((e.inputs.lookup "custom_block").bind (·.block)).bind getBlock
  let mutation := if e.opcode = some "procedures_definition" then prototype.bind (·.mutation) else e.mutation
  mutation.bind (·.procedure)

def blockCached (e : Entry) (getBlock : String → Option Entry) : Block where
  inputs := e.argValues getBlock
  next := e.next.bind BlockId.ofText
  substack := e.getBranch "SUBSTACK"
  substack2 := e.getBranch "SUBSTACK2"
  stopOption := e.stopOption
  mutation := e.procedure getBlock

end Entry

def Entry.kind (e : Entry) : Opcode := (e.opcode.bind opcodeNamed).getD .other

namespace Workspace

variable [Packages] {w : Workspace}

/-- The blocks that the VM runs are those of the workspace. -/
structure Shows [Opcodes] (w : Workspace) (blocks : Blocks) : Prop where
  cached : ∀ id : BlockId, blocks.getBlock id = (w.blocks id.text).map (·.blockCached w.blocks)
  scripts : blocks.scripts.map (·.text) = w.scripts
  opcodes : ∀ (id : BlockId) (e : Entry), w.blocks id.text = some e → Opcodes.opcode id = e.kind

@[reducible] def opcodes (w : Workspace) : Opcodes where
  opcode id := ((w.blocks id.text).map (·.kind)).getD .other

def toBlocks (w : Workspace) (ids : List BlockId) : Blocks where
  blocks := ids.filterMap fun id => (w.blocks id.text).map fun e => (id, e.blockCached w.blocks)
  scripts := w.scripts.filterMap BlockId.ofText

end Workspace

end ArRobotCode.Scratch
