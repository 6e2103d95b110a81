import ArRobotCode.Library.BlockMachine
import ArRobotCode.Scratch.Vm

namespace ArRobotCode.Scratch

section Counts

/-- Up to here every integer is a number of JavaScript. -/
def maxExact : Nat := 9007199254740992

theorem roundMagnitude_exact {n : Nat} (small : n ≤ maxExact) : roundMagnitude n = n := by
  unfold maxExact at small
  by_cases last : n = 9007199254740992
  · rw [last]
    decide
  · have digits : n.log2 - 52 = 0 := by
      by_cases zero : n = 0
      · rw [zero]
        decide
      · have low : n.log2 < 53 := (Nat.log2_lt zero).mpr (by omega)
        omega
    simp [roundMagnitude, digits, Nat.mod_one]

theorem roundDouble_exact {n : Int} (small : n.natAbs ≤ maxExact) : roundDouble n = n := by
  unfold roundDouble
  rw [roundMagnitude_exact small]
  split <;> omega

theorem roundMagnitude_pos {n : Nat} (positive : 0 < n) : 0 < roundMagnitude n := by
  have unit : 0 < 1 <<< (n.log2 - 52) := by
    rw [Nat.one_shiftLeft]
    exact Nat.two_pow_pos _
  have fits : 1 <<< (n.log2 - 52) ≤ n := by
    rw [Nat.one_shiftLeft]
    have highest := Nat.log2_self_le (n := n) (by omega)
    have fewer := Nat.pow_le_pow_right (n := 2) (by decide) (show n.log2 - 52 ≤ n.log2 by omega)
    exact Nat.le_trans fewer highest
  have below : 0 < n / 1 <<< (n.log2 - 52) := Nat.div_pos fits unit
  unfold roundMagnitude
  dsimp only
  split
  · exact Nat.mul_pos below unit
  · exact Nat.mul_pos (Nat.succ_pos _) unit

/-- The number of passes that a loop with this counter makes, where the counter is exact. -/
def Count.passes : Count → Option Nat
  | .finite n => if n ≤ maxExact then some n.toNat else none
  | .infinite negative => if negative then some 0 else none

theorem Count.passes_le {count : Count} {passes : Nat} (counts : count.passes = some passes) : passes ≤ maxExact := by
  cases count with
  | finite n =>
    simp only [Count.passes] at counts
    split at counts
    · cases counts
      omega
    · cases counts
  | infinite negative =>
    cases negative
    · simp [Count.passes] at counts
    · cases counts
      exact Nat.zero_le _

theorem Count.decrement_of_passes {count : Count} {passes : Nat} (counts : count.passes = some (passes + 1)) :
    count.decrement = .finite passes := by
  cases count with
  | finite n =>
    simp only [Count.passes] at counts
    split at counts
    · rename_i small
      cases counts' : n.toNat with
      | zero => simp [counts'] at counts
      | succ k =>
        simp only [counts', Option.some.injEq, Nat.add_right_cancel_iff] at counts
        have fewer : n - 1 = passes := by omega
        rw [Count.decrement, fewer, roundDouble_exact (by omega)]
    · cases counts
  | infinite negative =>
    cases negative <;> simp [Count.passes] at counts

theorem Count.decrement_of_no_passes {count : Count} (counts : count.passes = some 0) :
    count.decrement.nonnegative = false := by
  cases count with
  | finite n =>
    simp only [Count.passes] at counts
    split at counts
    · have none : n.toNat = 0 := Option.some.inj counts
      have below : n - 1 < 0 := by omega
      have size := roundMagnitude_pos (show 0 < (n - 1).natAbs by omega)
      simp only [Count.decrement, Count.nonnegative, roundDouble, below, if_true, decide_eq_false_iff_not]
      omega
    · cases counts
  | infinite negative =>
    cases negative
    · simp [Count.passes] at counts
    · rfl

theorem Count.passes_finite {n : Nat} (small : n ≤ maxExact) : (Count.finite n).passes = some n := by
  simp [passes, small]

end Counts

def JsValue.Denotes (value : JsValue) (n : Int) : Prop :=
  match value with
  | .text numeral => Swift.signedDigits numeral.toList = some n
  | .number stored => stored = .finite (.ofInt n)
  | .nan | .bool _ | .undefined => False

theorem round_ofInt (n : Int) : Count.round (.finite (.ofInt n)) = .finite n := by
  simp only [Count.round, Rat.ofInt, Count.finite.injEq]
  omega

theorem passes_ofInt {n : Int} (small : n ≤ maxExact) : (Count.round (.ofInt n)).passes = some n.toNat := by
  by_cases negative : n < 0
  · have none : n.toNat = 0 := by omega
    rw [none, Number.ofInt]
    split
    · simp [Count.round, Count.passes, negative]
    · rw [round_ofInt, roundDouble, if_pos negative]
      have below : -(roundMagnitude n.natAbs : Int) ≤ maxExact := by
        unfold maxExact
        omega
      rw [Count.passes, if_pos below, Option.some.injEq]
      omega
  · have size : n.natAbs ≤ maxExact := by omega
    have finite : ¬ roundMagnitude n.natAbs ≥ 1 <<< 1024 := by
      rw [roundMagnitude_exact size]
      unfold maxExact at size
      have large : 9007199254740992 < 1 <<< 1024 := by decide
      omega
    rw [Number.ofInt, if_neg finite, roundDouble_exact size, round_ofInt, Count.passes, if_pos small]

def RobotBlock.order (block : RobotBlock) (argument : String) : String :=
  block.instruction ++ " " ++ argument

inductive Script where
  | done
  | instruction (id : BlockId) (block : RobotBlock) (argument : String) (next : Script)
  | repeatTimes (id : BlockId) (times : Int) (body next : Script)
  | forever (id : BlockId) (body next : Script)

namespace Script

def trace : Script → List String
  | done => []
  | instruction _ block argument next => block.order argument :: trace next
  | repeatTimes _ times body next => (List.replicate times.toNat (trace body)).flatten ++ trace next
  | forever _ body next => (List.replicate 500 (trace body)).flatten ++ trace next

def Exact : Script → Prop
  | done => True
  | instruction _ _ _ next => Exact next
  | repeatTimes _ times body next => times ≤ maxExact ∧ Exact body ∧ Exact next
  | forever _ body next => Exact body ∧ Exact next

def machine : Script → BlockMachine.Script BlockId String
  | done => .done
  | instruction id block argument next => .emit id [block.order argument] (machine next)
  | repeatTimes id times body next => .loop id times.toNat (machine body) (machine next)
  | forever id body next => .loop id 500 (machine body) (machine next)

theorem trace_machine (script : Script) : script.machine.trace = script.trace := by
  induction script with
  | done => rfl
  | instruction id block argument next ih => simp [machine, trace, BlockMachine.Script.trace, ih]
  | repeatTimes id times body next ihBody ihNext =>
    simp only [machine, trace, BlockMachine.Script.trace, ihBody, ihNext]
  | forever id body next ihBody ihNext => simp only [machine, trace, BlockMachine.Script.trace, ihBody, ihNext]

end Script

section Scripts

variable [JavaScript]

theorem passes_of_denotes {value : JsValue} {n : Int} (denotes : value.Denotes n) (small : n ≤ maxExact) :
    (Count.round (Cast.toNumber value)).passes = some n.toNat := by
  cases value with
  | text text =>
    have number : Cast.toNumber (.text text) = .ofInt n := by
      simp only [JsValue.Denotes] at denotes
      simp [Cast.toNumber, Cast.numberOfText, denotes]
    rw [number, passes_ofInt small]
  | number number =>
    rw [show number = _ from denotes, Cast.toNumber, round_ofInt, Count.passes, if_pos small]
  | nan | bool _ | undefined => exact denotes.elim

variable [Opcodes]

def Block.constant (block : Block) (name : String) : Option JsValue :=
  match block.input name with
  | none => some .undefined
  | some (.value value) => some value
  | some .reporter => none

/-- The blocks that programs are built of, with their inputs constant, as the machine's nodes. -/
def Blocks.node (blocks : Blocks) (id : BlockId) : Option (BlockMachine.Node BlockId String) := do
  let block ← blocks.getBlock id
  match Opcodes.opcode id with
  | .eventWhenflagclicked => return .emit [] block.next
  | .robot robot => return .emit [robot.order (← robot.argument (← block.constant robot.input))] block.next
  | .controlRepeat =>
    let times ← (Count.round (Cast.toNumber (← block.constant "TIMES"))).passes
    if block.substack = some id then none else return .loop times block.substack block.next
  | .controlForever => if block.substack = some id then none else return .loop 500 block.substack block.next
  | _ => none

theorem Blocks.node_emit {blocks : Blocks} {id : BlockId} {messages : List String} {after : Option BlockId}
    (node : blocks.node id = some (.emit messages after)) : ∃ block, blocks.getBlock id = some block ∧
      block.next = after ∧ ((Opcodes.opcode id = .eventWhenflagclicked ∧ messages = []) ∨
        ∃ robot value argument, Opcodes.opcode id = .robot robot ∧ block.constant robot.input = some value ∧
          robot.argument value = some argument ∧ messages = [robot.order argument]) := by
  simp only [Blocks.node, Option.bind_eq_bind, Option.bind_eq_some_iff] at node
  obtain ⟨block, found, node⟩ := node
  refine ⟨block, found, ?_⟩
  cases opcode : Opcodes.opcode id with
  | eventWhenflagclicked =>
    simp only [opcode, Option.pure_def, Option.some.injEq, BlockMachine.Node.emit.injEq] at node
    exact ⟨node.2, .inl ⟨rfl, node.1.symm⟩⟩
  | robot robot =>
    simp only [opcode, Option.bind_eq_some_iff, Option.pure_def, Option.some.injEq,
      BlockMachine.Node.emit.injEq] at node
    obtain ⟨value, constant, argument, reads, order, next⟩ := node
    exact ⟨next, .inr ⟨robot, value, argument, rfl, constant, reads, order.symm⟩⟩
  | controlRepeat =>
    simp only [opcode, Option.bind_eq_some_iff] at node
    obtain ⟨_, _, _, _, loops⟩ := node
    split at loops <;> simp at loops
  | controlForever =>
    simp only [opcode] at node
    split at node <;> simp at node
  | _ => simp [opcode] at node

theorem Blocks.node_loop {blocks : Blocks} {id : BlockId} {times : Nat} {branch after : Option BlockId}
    (node : blocks.node id = some (.loop times branch after)) : ∃ block, blocks.getBlock id = some block ∧
      block.next = after ∧ block.substack = branch ∧ branch ≠ some id ∧
      ((Opcodes.opcode id = .controlForever ∧ times = 500) ∨
        ∃ value, Opcodes.opcode id = .controlRepeat ∧ block.constant "TIMES" = some value ∧
          (Count.round (Cast.toNumber value)).passes = some times) := by
  simp only [Blocks.node, Option.bind_eq_bind, Option.bind_eq_some_iff] at node
  obtain ⟨block, found, node⟩ := node
  refine ⟨block, found, ?_⟩
  cases opcode : Opcodes.opcode id with
  | controlRepeat =>
    simp only [opcode, Option.bind_eq_some_iff] at node
    obtain ⟨value, constant, times', counts, loops⟩ := node
    split at loops
    · cases loops
    · rename_i acyclic
      cases loops
      exact ⟨rfl, rfl, acyclic, .inr ⟨value, rfl, constant, counts⟩⟩
  | controlForever =>
    simp only [opcode] at node
    split at node
    · cases node
    · rename_i acyclic
      cases node
      exact ⟨rfl, rfl, acyclic, .inl ⟨rfl, rfl⟩⟩
  | robot robot =>
    simp only [opcode, Option.bind_eq_some_iff] at node
    obtain ⟨_, _, _, _, emits⟩ := node
    cases emits
  | _ => simp [opcode] at node

namespace Script

def Laid (blocks : Blocks) : Option BlockId → Script → Prop
  | start, done => start = none
  | start, instruction id block argument next => start = some id ∧ Opcodes.opcode id = .robot block ∧
    ∃ b value, blocks.getBlock id = some b ∧ b.constant block.input = some value ∧
      block.argument value = some argument ∧ Laid blocks b.next next
  | start, repeatTimes id times body next => start = some id ∧ Opcodes.opcode id = .controlRepeat ∧
    ∃ b value, blocks.getBlock id = some b ∧ b.constant "TIMES" = some value ∧ value.Denotes times ∧
      Laid blocks b.substack body ∧ Laid blocks b.next next
  | start, forever id body next => start = some id ∧ Opcodes.opcode id = .controlForever ∧
    ∃ b, blocks.getBlock id = some b ∧ Laid blocks b.substack body ∧ Laid blocks b.next next

variable {blocks : Blocks}

theorem Laid.not_own_branch {script : Script} {start : Option BlockId} (laid : script.Laid blocks start) {id : BlockId}
    (first : start = some id) {b : Block} (found : blocks.getBlock id = some b) (cyclic : b.substack = some id)
    (loops : ∀ robot, Opcodes.opcode id ≠ .robot robot) : False := by
  induction script generalizing start with
  | done =>
    rw [first] at laid
    cases laid
  | instruction id' block argument next ih =>
    obtain ⟨here, opcode, _⟩ := laid
    rw [first] at here
    cases here
    exact loops block opcode
  | repeatTimes id' times body next ihBody ihNext =>
    obtain ⟨here, opcode, b', value, found', _, _, inner, _⟩ := laid
    rw [first] at here
    cases here
    rw [found] at found'
    cases found'
    exact ihBody inner cyclic
  | forever id' body next ihBody ihNext =>
    obtain ⟨here, opcode, b', found', inner, _⟩ := laid
    rw [first] at here
    cases here
    rw [found] at found'
    cases found'
    exact ihBody inner cyclic

theorem Laid.machine {script : Script} {start : Option BlockId} (laid : script.Laid blocks start)
    (small : script.Exact) : script.machine.Laid blocks.node start := by
  induction script generalizing start with
  | done => exact laid
  | instruction id block argument next ih =>
    obtain ⟨here, opcode, b, value, found, constant, reads, rest⟩ := laid
    refine ⟨here, b.next, ?_, ih rest small⟩
    simp [Blocks.node, found, opcode, constant, reads]
  | repeatTimes id times body next ihBody ihNext =>
    obtain ⟨small, smallBody, smallNext⟩ := small
    have whole := laid
    obtain ⟨here, opcode, b, value, found, constant, denotes, inner, rest⟩ := laid
    have acyclic : b.substack ≠ some id := fun cyclic => whole.not_own_branch here found cyclic (by simp [opcode])
    refine ⟨here, b.substack, b.next, ?_, ihBody inner smallBody, ihNext rest smallNext⟩
    simp [Blocks.node, found, opcode, constant, passes_of_denotes denotes small, acyclic]
  | forever id body next ihBody ihNext =>
    have whole := laid
    obtain ⟨here, opcode, b, found, inner, rest⟩ := laid
    have acyclic : b.substack ≠ some id := fun cyclic => whole.not_own_branch here found cyclic (by simp [opcode])
    refine ⟨here, b.substack, b.next, ?_, ihBody inner small.1, ihNext rest small.2⟩
    simp [Blocks.node, found, opcode, acyclic]

end Script

end Scripts

end ArRobotCode.Scratch
