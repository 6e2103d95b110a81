import ArRobotCode.Library.Structured
import ArRobotCode.Scratch.Script

namespace ArRobotCode.Scratch

open Structured

abbrev Program := Structured.Program BlockId String

section Blocks

variable [JavaScript] [Opcodes]

/-- What a robot block may say: with a reporter in its input, any of its orders. -/
def Block.orders (block : Block) (robot : RobotBlock) : Set String :=
  match block.constant robot.input with
  | some value => {order | (robot.argument value).map robot.order = some order}
  | none => Set.range robot.order

omit [Opcodes] in
theorem Block.orders_eq {block : Block} {robot : RobotBlock} {value : JsValue} {argument : String}
    (constant : block.constant robot.input = some value) (reads : robot.argument value = some argument) :
    block.orders robot = {robot.order argument} := by
  unfold Block.orders
  rw [constant]
  ext order
  simp [reads, eq_comm]

/-- How often a loop goes round, where its block tells; `none` is for blocks that are no loops. -/
def Block.times (block : Block) (id : BlockId) : Option (Option Nat) :=
  match Opcodes.opcode id with
  | .controlForever => some (some 500)
  | .controlRepeat =>
    some ((block.constant "TIMES").bind fun value => (Count.round (Cast.toNumber value)).passes)
  | .controlRepeatUntil => some none
  | _ => none

def Opcode.IsPlain (opcode : Opcode) : Prop :=
  opcode = .eventWhenflagclicked ∨ opcode = .proceduresDefinition ∨ opcode = .other ∨ opcode = .controlWait ∨
    opcode = .controlWaitUntil ∨ opcode = .controlStop

namespace Program

def Laid (blocks : Blocks) : Option BlockId → Program → Prop
  | start, .done => start = none
  | start, .emit id symbols next => start = some id ∧ ∃ b robot, blocks.getBlock id = some b ∧
    Opcodes.opcode id = .robot robot ∧ b.orders robot = symbols ∧ symbols.Nonempty ∧ Laid blocks b.next next
  | start, .loop id times body next => start = some id ∧ ∃ b, blocks.getBlock id = some b ∧
    b.times id = some times ∧ Laid blocks b.substack body ∧ Laid blocks b.next next
  | start, .choose id yes no next => start = some id ∧ ∃ b, blocks.getBlock id = some b ∧ Laid blocks b.substack yes ∧
    (Opcodes.opcode id = .controlIf ∧ no = .done ∨ Opcodes.opcode id = .controlIfElse ∧ Laid blocks b.substack2 no) ∧
    Laid blocks b.next next
  | start, .pass id next => start = some id ∧ ∃ b, blocks.getBlock id = some b ∧
    (Opcodes.opcode id).IsPlain ∧ Laid blocks b.next next

/-- Nothing in the program waits for the world, or ends it before its end. -/
def Steady : Program → Prop
  | .done => True
  | .emit _ symbols next => symbols.Subsingleton ∧ Steady next
  | .loop _ times body next => times.isSome ∧ Steady body ∧ Steady next
  | .choose _ yes no next => Steady yes ∧ Steady no ∧ Steady next
  | .pass id next => Opcodes.opcode id ≠ .controlWait ∧ Opcodes.opcode id ≠ .controlWaitUntil ∧
    Opcodes.opcode id ≠ .controlStop ∧ Steady next

variable {blocks : Blocks} {p q : Program} {start : Option BlockId} {id : BlockId} {b : Block}

theorem Laid.vocal (laid : p.Laid blocks start) : p.Vocal := by
  induction p generalizing start with
  | done => trivial
  | emit id symbols next ih =>
    obtain ⟨_, b, robot, _, _, _, nonempty, rest⟩ := laid
    exact ⟨nonempty, ih rest⟩
  | loop id times body next ihBody ihNext =>
    obtain ⟨_, b, _, _, inner, rest⟩ := laid
    exact ⟨ihBody inner, ihNext rest⟩
  | choose id yes no next ihYes ihNo ihNext =>
    obtain ⟨_, b, _, first, second, rest⟩ := laid
    refine ⟨ihYes first, ?_, ihNext rest⟩
    rcases second with ⟨_, none⟩ | ⟨_, second⟩
    · rw [none]
      trivial
    · exact ihNo second
  | pass id next ih =>
    obtain ⟨_, b, _, _, rest⟩ := laid
    exact ih rest

theorem Laid.eq_done (laid : p.Laid blocks none) : p = .done := by
  cases p with
  | done => rfl
  | emit _ _ _ | loop _ _ _ _ | choose _ _ _ _ | pass _ _ =>
    obtain ⟨start, _⟩ := laid
    cases start

inductive Begins (blocks : Blocks) (id : BlockId) (b : Block) : Program → Prop
  | emit {robot : RobotBlock} {next : Program} (opcode : Opcodes.opcode id = .robot robot)
      (nonempty : (b.orders robot).Nonempty) (rest : next.Laid blocks b.next) :
      Begins blocks id b (.emit id (b.orders robot) next)
  | loop {times : Option Nat} {body next : Program} (loops : b.times id = some times)
      (inner : body.Laid blocks b.substack) (rest : next.Laid blocks b.next) :
      Begins blocks id b (.loop id times body next)
  | ifThen {yes next : Program} (opcode : Opcodes.opcode id = .controlIf) (inner : yes.Laid blocks b.substack)
      (rest : next.Laid blocks b.next) : Begins blocks id b (.choose id yes .done next)
  | ifElse {yes no next : Program} (opcode : Opcodes.opcode id = .controlIfElse) (inner : yes.Laid blocks b.substack)
      (other : no.Laid blocks b.substack2) (rest : next.Laid blocks b.next) :
      Begins blocks id b (.choose id yes no next)
  | pass {next : Program} (plain : (Opcodes.opcode id).IsPlain) (rest : next.Laid blocks b.next) :
      Begins blocks id b (.pass id next)

theorem Laid.begins (laid : p.Laid blocks (some id)) : ∃ b, blocks.getBlock id = some b ∧ Begins blocks id b p := by
  cases p with
  | done => cases laid
  | emit id' symbols next =>
    obtain ⟨start, b, robot, found, opcode, rfl, nonempty, rest⟩ := laid
    cases start
    exact ⟨b, found, .emit opcode nonempty rest⟩
  | loop id' times body next =>
    obtain ⟨start, b, found, loops, inner, rest⟩ := laid
    cases start
    exact ⟨b, found, .loop loops inner rest⟩
  | choose id' yes no next =>
    obtain ⟨start, b, found, inner, other, rest⟩ := laid
    cases start
    rcases other with ⟨opcode, rfl⟩ | ⟨opcode, other⟩
    · exact ⟨b, found, .ifThen opcode inner rest⟩
    · exact ⟨b, found, .ifElse opcode inner other rest⟩
  | pass id' next =>
    obtain ⟨start, b, found, plain, rest⟩ := laid
    cases start
    exact ⟨b, found, .pass plain rest⟩

end Program

end Blocks

end ArRobotCode.Scratch
