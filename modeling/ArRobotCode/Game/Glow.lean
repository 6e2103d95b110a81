import ArRobotCode.Game.Protocol
import ArRobotCode.Scratch.Executions

namespace ArRobotCode

open Swift Scratch

theorem first_of_message [Graphemes] {id : String} (word : Word id) (block : RobotBlock) (argument : String) :
    at? (split (instructionMessage id block.instruction argument) ' ') 0 = some id := by
  unfold instructionMessage
  cases starts : startsExtending argument with
  | false =>
    rw [split_three_parts word.nonempty word.spaceless block.instruction_word word.not_endsPrepended starts]
    rfl
  | true =>
    obtain ⟨more, later, parts⟩ :=
      split_joined_rest word.nonempty word.spaceless block.instruction_word word.not_endsPrepended starts
    rw [parts]
    rfl

theorem printedEntry_eq_id {entry : Option (Option BlockId)} {id : BlockId} (notMissing : id.text ≠ "undefined")
    (notNull : id.text ≠ "null") (same : printedEntry entry = id.text) : entry = some (some id) := by
  rcases entry with _ | _ | other
  · exact absurd same.symm notMissing
  · exact absurd same.symm notNull
  · cases other
    cases id
    cases same
    rfl

namespace Scratch

theorem Thread.peekStack_eq_iff (t : Thread) (id : BlockId) :
    t.peekStack = some id ↔ t.stack.head?.map (·.block) = some (some id) := by
  unfold Thread.peekStack
  cases t.stack <;> simp

theorem entry_of_stands {first : Thread} {id : BlockId} {block : RobotBlock} (top : first.peekStack = some id)
    (alone : block = .turnRight ∨ block = .turnLeft → first.stack.length = 1) :
    block.entry first = some (some id) := by
  have head := (first.peekStack_eq_iff id).mp top
  cases block with
  | turnRight | turnLeft =>
    obtain ⟨level, stack⟩ := List.length_eq_one_iff.mp (alone (by simp))
    simpa [RobotBlock.entry, stack] using head
  | moveSteps | moveStepsBack | movestepsIf | movestepsBackIf | turnleftIf | turnrightIf => exact head

section Names

variable [Opcodes]

theorem stands_of_entry {first : Thread} {id : BlockId} {block : RobotBlock} (nested : first.Nested)
    (opcode : Opcodes.opcode id = .robot block) (entry : block.entry first = some (some id)) :
    first.peekStack = some id ∧ (block = .turnRight ∨ block = .turnLeft → first.stack.length = 1) := by
  rw [Thread.peekStack_eq_iff]
  cases block with
  | turnRight | turnLeft =>
    unfold RobotBlock.entry at entry
    cases stack : first.stack with
    | nil => simp [stack] at entry
    | cons head below =>
      rcases List.eq_nil_or_concat below with rfl | ⟨middle, bottom, rfl⟩
      · simpa [stack] using entry
      · have last : bottom.block = some id := by simpa [stack, List.getLast?_cons] using entry
        have plain := nested bottom (by simp [stack])
        exact absurd opcode (plain id _ last)
  | moveSteps | moveStepsBack | movestepsIf | movestepsBackIf | turnleftIf | turnrightIf =>
    exact ⟨entry, by simp⟩

variable [Graphemes] [JavaScript] {x : Execution}

namespace Execution

/-- The first token of the message is the id of the block that was executed. -/
def Named (x : Execution) : Prop := at? (split x.message ' ') 0 = some x.id.text

/-- The first thread stands on the executed block; where the block takes the bottom of the stack, on nothing else. -/
def FirstStands (x : Execution) : Prop :=
  ∃ first rest, x.threads = first :: rest ∧ first.peekStack = some x.id ∧
    (x.block = .turnRight ∨ x.block = .turnLeft → first.stack.length = 1)

theorem Recorded.named_iff (recorded : x.Recorded) :
    ∃ first rest, x.threads = first :: rest ∧ (x.Named ↔ printedEntry (x.block.entry first) = x.id.text) := by
  obtain ⟨first, rest, value, threads, posts⟩ := recorded.message
  refine ⟨first, rest, threads, ?_⟩
  rw [RobotBlock.message_eq, Option.map_eq_some_iff] at posts
  obtain ⟨argument, _, message⟩ := posts
  unfold Named
  rw [← message, first_of_message (printedEntry_word _), Option.some.injEq]

end Execution

namespace Vm

/-- In every run the message of an executed robot block names it if the first thread stands on it, and only then. -/
theorem executed_block_named (project : Project) (world : Nat → Answer) (events : List Event) :
    ∀ x ∈ ((create project world).after events).executions,
      (x.FirstStands → x.Named) ∧
      (x.Named → x.id.text ≠ "undefined" → x.id.text ≠ "null" → x.FirstStands) := by
  have initial : (create project world).Sound := ⟨by simp [create], by simp [create]⟩
  intro x member
  have recorded := (sound_after initial events).2 x member
  obtain ⟨first, rest, threads, named⟩ := recorded.named_iff
  constructor
  · intro stands
    obtain ⟨first', rest', threads', top, alone⟩ := stands
    rw [threads] at threads'
    cases threads'
    rw [named, entry_of_stands top alone]
    rfl
  · intro names notMissing notNull
    have entry := printedEntry_eq_id notMissing notNull (named.mp names)
    have nested := recorded.nested first (by rw [threads]; exact List.mem_cons_self)
    obtain ⟨top, alone⟩ := stands_of_entry nested recorded.opcode entry
    exact ⟨first, rest, threads, top, alone⟩

end Vm

end Names

namespace Wandering

local instance : Graphemes := .marks

local instance : JavaScript := .texts

def hat : BlockId := ⟨"hat", by decide, List.all_iff_forall_prop.mp (by decide +kernel)⟩
def loop : BlockId := ⟨"loop", by decide, List.all_iff_forall_prop.mp (by decide +kernel)⟩
def move : BlockId := ⟨"move", by decide, List.all_iff_forall_prop.mp (by decide +kernel)⟩
def turn : BlockId := ⟨"turn", by decide, List.all_iff_forall_prop.mp (by decide +kernel)⟩

local instance : Opcodes where
  opcode id :=
    if id = hat then .eventWhenflagclicked
    else if id = loop then .controlForever
    else if id = move then .robot .moveSteps
    else if id = turn then .robot .turnRight
    else .other

def wandering : Project where
  executableTargets := [0]
  blocks _ :=
    { scripts := [hat]
      blocks := [(hat, { next := some loop }), (loop, { substack := some move }),
        (move, { inputs := [("STEPS", .value (.text "10"))], next := some turn }),
        (turn, { inputs := [("DEGREES", .value (.text "15"))] })] }

def wanderer (inside : BlockId) : Thread :=
  { serial := 0, topBlock := hat, target := 0, stackClick := false, updateMonitor := false
    stack := [⟨some inside, {}⟩, ⟨some loop, { isLoop := true, loopCounter := some (.finite 499) }⟩] }

theorem executed_block_named_wandering :
    (⟨[wanderer move], 0, move, .moveSteps, "move moveFront 10"⟩ : Execution).Named := by
  apply (Vm.executed_block_named wandering (fun _ => {}) [.greenFlag, .tick 4 1] _ (by decide +kernel)).1
  exact ⟨_, [], rfl, rfl, by simp⟩

/-- The turn names the loop around it. -/
theorem turn_in_loop_not_named :
    ¬ ∀ project world events, ∀ x ∈ ((Vm.create project world).after events).executions, x.Named := by
  intro always
  have named := always wandering (fun _ => {}) [.greenFlag, .tick 4 1]
    ⟨[wanderer turn], 0, turn, .turnRight, "loop turnRight 15"⟩ (by decide +kernel)
  revert named
  unfold Execution.Named
  decide

end Wandering

end Scratch

end ArRobotCode
