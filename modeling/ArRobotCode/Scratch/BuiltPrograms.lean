import ArRobotCode.Scratch.BlockCached
import ArRobotCode.Scratch.WorkspaceEvents
import ArRobotCode.Scratch.StructuredRuns

namespace ArRobotCode.Scratch

open Structured Trapping

section Readings

variable [Host] [Packages] [JavaScript]

def EditorBlock.blockCached (data : EditorBlock) (inputs : EditorTree .inputs) (next : EditorTree .stack) : Block :=
  (inputs.link next (data.entry false none .undefined .undefined)).blockCached fun id =>
    (inputs.entries data.id).lookup id

/-- The block does not stop for want of an argument. -/
def Block.speaks (b : Block) (robot : RobotBlock) : Bool :=
  (b.constant robot.input).all fun value => (robot.argument value).isSome

def branch (branches : List (String × Option Program)) (name : String) : Option Program :=
  (branches.lookup name).getD (some .done)

def spell (id : BlockId) (opcode : Opcode) (b : Block) (branches : List (String × Option Program)) (next : Program) :
    Option Program :=
  match opcode with
  | .robot robot => if b.speaks robot then some (.emit id (b.orders robot) next) else none
  | .controlRepeat => do
    let times := (b.constant "TIMES").bind fun value => (Count.round (Cast.toNumber value)).passes
    return .loop id times (← branch branches "SUBSTACK") next
  | .controlForever => do return .loop id (some 500) (← branch branches "SUBSTACK") next
  | .controlRepeatUntil => do return .loop id none (← branch branches "SUBSTACK") next
  | .controlIf => do return .choose id (← branch branches "SUBSTACK") .done next
  | .controlIfElse => do return .choose id (← branch branches "SUBSTACK") (← branch branches "SUBSTACK2") next
  | .eventWhenflagclicked | .controlWait | .controlWaitUntil | .controlStop | .proceduresDefinition =>
    some (.pass id next)
  | .proceduresCall | .other => none

/-- A stack spells a program, inputs spell one each. -/
def Reading : Layer → Type
  | .stack => Option Program
  | .inputs => List (String × Option Program)

/-- The program that blocks of the editor spell, where they are all of the kinds that programs are made of. -/
def EditorTree.reading : {layer : Layer} → EditorTree layer → Reading layer
  | _, nothing => some Program.done
  | _, block data inputs next => do
    let id ← BlockId.ofText data.id
    let opcode ← opcodeNamed data.type
    let following : Program ← next.reading
    spell id opcode (data.blockCached inputs next) inputs.reading following
  | _, noInputs => []
  | _, input name _ target _ rest => (name, target.reading) :: rest.reading

def EditorTree.program (tree : EditorTree .stack) : Option Program := tree.reading

end Readings

section Spelling

variable [Host] [Packages] [JavaScript] [Opcodes] {w : Workspace} {blocks : Blocks} {p : Program} {id : BlockId}

/-- What the readings of the parts of a tree are to the blocks of the VM. -/
def EditorTree.Laid (blocks : Blocks) : {layer : Layer} → EditorTree layer → Prop
  | .stack, tree => ∀ p, tree.program = some p → p.Laid blocks ((tree.head?.map (·.id)).bind BlockId.ofText)
  | .inputs, tree => ∀ name p, branch tree.reading name = some p →
    p.Laid blocks (((tree.slots.lookup name).bind (·.block)).bind BlockId.ofText)

end Spelling

section Piles

variable [Host]

structure Pile where
  tree : EditorTree .stack
  x : String
  y : String

def Pile.entries (pile : Pile) : List (String × Entry) := pile.tree.topEntries pile.x pile.y

omit [Host] in
def Pile.event (pile : Pile) : Event := .create (pile.tree.toDomWithXY pile.x pile.y)

def Pile.flag (pile : Pile) : Bool :=
  pile.tree.head?.any fun data => opcodeNamed data.type = some .eventWhenflagclicked

def Pile.top (pile : Pile) : String := (pile.tree.head?.map (·.id)).getD ""

variable [Packages] [Opcodes] {piles : List Pile} {w : Workspace} {project : Project} {target : Nat}

variable [JavaScript]

end Piles

namespace Built

local instance : Host := ⟨id, toString⟩
local instance : JavaScript := .texts
local instance : Packages := ⟨(· = "event_whenflagclicked"), fun opcode => (opcodeNamed opcode).isSome⟩

def clicked : BlockId := ⟨"clicked", by decide, List.all_iff_forall_prop.mp (by decide +kernel)⟩
def rounds : BlockId := ⟨"rounds", by decide, List.all_iff_forall_prop.mp (by decide +kernel)⟩
def times : BlockId := ⟨"times", by decide, List.all_iff_forall_prop.mp (by decide +kernel)⟩
def stride : BlockId := ⟨"stride", by decide, List.all_iff_forall_prop.mp (by decide +kernel)⟩
def length : BlockId := ⟨"length", by decide, List.all_iff_forall_prop.mp (by decide +kernel)⟩
def idle : BlockId := ⟨"idle", by decide, List.all_iff_forall_prop.mp (by decide +kernel)⟩
def width : BlockId := ⟨"width", by decide, List.all_iff_forall_prop.mp (by decide +kernel)⟩

def number (id : BlockId) (value : String) : EditorTree .stack :=
  .block { id := id.text, type := "math_whole_number", isShadow := true, fields := [{ name := "NUM", value }] }
    .noInputs .nothing

def step (id shown : BlockId) : EditorTree .stack :=
  .block { id := id.text, type := "motion_movesteps" } (.input "STEPS" false (number shown "10") .nothing .noInputs)
    .nothing

def repeating : EditorTree .inputs :=
  .input "TIMES" false (number times "3") .nothing (.input "SUBSTACK" true (step stride length) .nothing .noInputs)

def walking : EditorTree .stack :=
  .block { id := clicked.text, type := "event_whenflagclicked" } .noInputs
    (.block { id := rounds.text, type := "control_repeat" } repeating .nothing)

def built : Workspace :=
  (({} : Workspace).createBlocks (walking.topEntries "0" "0")).createBlocks ((step idle width).topEntries "200" "0")

local instance : Opcodes := built.opcodes

def strideBlock : Block :=
  EditorBlock.blockCached { id := stride.text, type := "motion_movesteps" }
    (.input "STEPS" false (number length "10") .nothing .noInputs) .nothing

def walk : Program :=
  .pass clicked (.loop rounds (some 3) (.emit stride (strideBlock.orders .moveSteps) .done) .done)

def ids : List BlockId := [clicked, rounds, times, stride, length, idle, width]

def project : Project where
  executableTargets := [0]
  blocks _ := built.toBlocks ids

end Built

end ArRobotCode.Scratch
