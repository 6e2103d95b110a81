import ArRobotCode.Scratch.Trace

namespace ArRobotCode.Scratch

open Trapping BlockMachine

section Refinements

variable [JavaScript] [Opcodes]

def Script.Refined (script : Script) : Prop :=
  ∀ (vm : Vm) (target : Nat) (hat : BlockId), vm.Carries target hat script → vm.Completes script

/-- The messages of the VM are the trace of the script, where the loop counters are exact. -/
theorem script_refined {script : Script} (exact : script.Exact) : script.Refined := by
  intro vm target hat carries
  exact carries.completes exact

/-- A repeat around nothing, with a counter that is never used up. -/
structure Blocks.Endless (blocks : Blocks) (id : BlockId) (count : Count) : Prop where
  opcode : Opcodes.opcode id = .controlRepeat
  found : ∃ block value, blocks.getBlock id = some block ∧ block.constant "TIMES" = some value ∧
    .round (Cast.toNumber value) = count
  empty : blocks.getBranch id 1 = none
  same : count.decrement = count
  more : count.nonnegative = true

structure Thread.Circling (target : Nat) (id : BlockId) (count : Count) (t : Thread) : Prop where
  running : t.Running target
  stack : ∃ frame : Frame, t.stack = [⟨some id, frame⟩] ∧ frame.warpMode = false ∧
    frame.loopCounter.getD count = count

namespace Vm

variable {vm : Vm} {t : Thread} {target : Nat} {id : BlockId} {count : Count}

theorem run_circle (endless : (vm.project.blocks target).Endless id count) (circling : t.Circling target id count)
    (fuel : Nat) : ∃ t', (executeBlocks 0 (fuel + 1)).run (vm.only t) = .ok () (vm.only t') ∧
      t'.Circling target id count := by
  obtain ⟨frame, stack, plain, counter⟩ := circling.stack
  obtain ⟨block, value, found, constant, counts⟩ := endless.found
  have running := circling.running
  have top : t.peekStack = some id := by rw [Thread.peekStack, stack]
  have remaining : (t.peekStackFrame.loopCounter.getD count).decrement = count := by
    rw [Thread.peekStackFrame, stack]
    dsimp only
    rw [counter, endless.same]
  have executed : (execute 0).run (vm.only t) = .ok () (vm.only
      ((t.updateFrame ({ · with loopCounter := some count })).stepToBranch (vm.project.blocks target) 1 true)) := by
    rw [run_execute top running.monitor (by rw [running.home]; exact found)]
    unfold primitive
    rw [endless.opcode]
    dsimp only
    rw [EStateM.run_bind, run_readInput constant]
    dsimp only
    rw [counts, run_loopTimes count remaining, if_pos endless.more, running.home]
  have entered := stepped_to stack plain endless.empty count
  have still := (running.updateFrame ({ · with loopCounter := some count })).stepToBranch
    (vm.project.blocks target) 1 true
  have left : ((t.updateFrame ({ · with loopCounter := some count })).stepToBranch
      (vm.project.blocks target) 1 true).switchFrom id (vm.project.blocks target) =
        (t.updateFrame ({ · with loopCounter := some count })).stepToBranch (vm.project.blocks target) 1 true := by
    rw [Thread.switchFrom, Thread.peekStack, entered]
    rfl
  have ran := run_executeBlocks top executed still.status (by rw [still.home]) (by rw [left, entered])
    (by simp [Level.Repeats, plain]) fuel
  refine ⟨_, ran, ?_, _, rfl, plain, rfl⟩
  rw [left]
  obtain ⟨status, alive, monitor, home⟩ := still
  exact ⟨status, alive, monitor, home⟩

theorem run_hat {hat : BlockId} (endless : (vm.project.blocks target).Endless id count)
    (node : (vm.project.blocks target).node hat = some (.emit [] (some id)))
    (standing : t.Standing target [(hat, none)]) (fuel : Nat) :
    ∃ (vm' : Vm) (t' : Thread), (executeBlocks 0 (fuel + 2)).run (vm.only t) = .ok () (vm'.only t') ∧
      vm'.project = vm.project ∧ t'.Circling target id count := by
  have stepped : step (vm.project.blocks target).node [(hat, none)] = some ([], [(id, none)]) := by
    simp [step, node, resume]
  obtain ⟨vm', ⟨t', goesOn, ran, standing', _⟩, posts⟩ := run_step standing (by simp [Nested]) stepped
  have circling : t'.Circling target id count :=
    ⟨standing'.running (List.cons_ne_nil _ _), {}, standing'.levels, rfl, rfl⟩
  cases goesOn with
  | false => exact ⟨vm', t', ran (fuel + 1), posts.project, circling⟩
  | true =>
    rw [← posts.project] at endless
    obtain ⟨t'', later, circling'⟩ := run_circle endless circling fuel
    exact ⟨vm', t'', (ran (fuel + 1)).trans later, posts.project, circling'⟩

def Circles (target : Nat) (id : BlockId) (count : Count) (vm : Vm) : Prop :=
  ∃ t, vm.threads = [t] ∧ t.Circling target id count

theorem run_single_pass {fuel : Nat} (unmonitored : vm.project.monitored = []) (threads : vm.refreshed.threads = [t])
    (running : t.status = .running) (top : t.peekStack.isSome)
    (circles : ∃ (vm' : Vm) (t' : Thread), (executeBlocks 0 fuel).run (vm.refreshed.only t) = .ok () (vm'.only t') ∧
      vm'.project = vm.project ∧ t'.Circling target id count) :
    ∃ vm', (tick fuel 1).run vm = .ok () vm' ∧ vm'.project = vm.project ∧ vm'.Circles target id count := by
  obtain ⟨vm', t', ran, project, circling⟩ := circles
  obtain ⟨frame, stack, _⟩ := circling.stack
  have unfinished : t'.finished = false := by simp [Thread.finished, stack, circling.running.status]
  have pass := run_visits threads running top ran
  refine ⟨vm'.only t', ?_, project, t', rfl, circling⟩
  rw [run_tick_eq unmonitored]
  unfold stepThreads
  rw [EStateM.run_bind, EStateM.run_get]
  dsimp only
  rw [if_pos ⟨by simp [threads], rfl, .inr rfl⟩, EStateM.run_bind, pass, unfinished]
  rfl

theorem run_circling_ticks (unmonitored : vm.project.monitored = [])
    (endless : (vm.project.blocks target).Endless id count) (circles : vm.Circles target id count) (fuel n : Nat) :
    ∃ vm', (runAll perform (List.replicate n (.tick (fuel + 1) 1))).run vm = .ok () vm' ∧
      vm'.Circles target id count := by
  induction n generalizing vm with
  | zero => exact ⟨vm, rfl, circles⟩
  | succ n ih =>
    obtain ⟨t, threads, circling⟩ := circles
    obtain ⟨frame, stack, _⟩ := circling.stack
    have fresh : vm.refreshed.threads = [t] := by simp [refreshed, threads, circling.running.alive]
    have top : t.peekStack.isSome := by rw [Thread.peekStack, stack]; rfl
    obtain ⟨t', circled, circling'⟩ := @run_circle _ _ vm.refreshed t target id count endless circling fuel
    obtain ⟨vm₁, ticked, project, circles₁⟩ := run_single_pass unmonitored fresh circling.running.status top
      ⟨vm.refreshed, t', circled, rfl, circling'⟩
    rw [← project] at unmonitored endless
    obtain ⟨vm₂, ran, circles₂⟩ := ih unmonitored endless circles₁
    refine ⟨vm₂, ?_, circles₂⟩
    rw [List.replicate_succ, runAll_cons_ok]
    exact ⟨vm₁, ticked, ran⟩

theorem run_endless {hat : BlockId} {script : Script} (carries : vm.Carries target hat script)
    (endless : (vm.project.blocks target).Endless id count)
    (next : (vm.project.blocks target).getNextBlock hat = some id) (fuel n : Nat) :
    ∃ vm', (runAll perform (.greenFlag :: List.replicate (n + 1) (.tick (fuel + 2) 1))).run vm = .ok () vm' ∧
      vm'.Circles target id count := by
  obtain ⟨vm₀, started, posts, serial, threads⟩ := run_greenFlag carries
  obtain ⟨b, found, _⟩ := carries.laid
  have node : (vm.project.blocks target).node hat = some (.emit [] (some id)) := by
    simp only [Blocks.getNextBlock, found, Option.bind_eq_bind, Option.bind_some] at next
    simp [Blocks.node, found, carries.opcode, next]
  have unmonitored := carries.unmonitored
  rw [← posts.project] at endless node unmonitored
  obtain ⟨vm₁, ticked, project, circles⟩ := run_single_pass unmonitored threads rfl rfl
    (@run_hat _ _ vm₀.refreshed _ target id count hat endless node (Thread.create_standing serial hat target) fuel)
  rw [← project] at unmonitored endless
  obtain ⟨vm₂, ran, circles₂⟩ := run_circling_ticks unmonitored endless circles (fuel + 1) n
  refine ⟨vm₂, ?_, circles₂⟩
  rw [runAll_cons_ok]
  refine ⟨vm₀, started, ?_⟩
  rw [List.replicate_succ, runAll_cons_ok]
  exact ⟨vm₁, ticked, ran⟩

end Vm

end Refinements

namespace Loops

local instance : JavaScript := .texts

def hat : BlockId := ⟨"flag", by decide, List.all_iff_forall_prop.mp (by decide +kernel)⟩
def outer : BlockId := ⟨"outer", by decide, List.all_iff_forall_prop.mp (by decide +kernel)⟩
def inner : BlockId := ⟨"inner", by decide, List.all_iff_forall_prop.mp (by decide +kernel)⟩
def move : BlockId := ⟨"walk", by decide, List.all_iff_forall_prop.mp (by decide +kernel)⟩
def turn : BlockId := ⟨"spin", by decide, List.all_iff_forall_prop.mp (by decide +kernel)⟩

local instance : Opcodes where
  opcode id :=
    if id = hat then .eventWhenflagclicked
    else if id = outer then .controlRepeat
    else if id = inner then .controlForever
    else if id = move then .robot .moveSteps
    else if id = turn then .robot .turnRight
    else .other

theorem hat_opcode : Opcodes.opcode hat = .eventWhenflagclicked := by decide +kernel

theorem outer_opcode : Opcodes.opcode outer = .controlRepeat := by decide +kernel

def workspace (outerBlock : Block) : Project where
  executableTargets := [0]
  blocks _ :=
    { scripts := [hat]
      blocks := [(hat, { next := some outer }), (outer, outerBlock), (inner, { substack := some turn }),
        (move, { inputs := [("STEPS", .value (.text "10"))] }),
        (turn, { inputs := [("DEGREES", .value (.text "90"))], next := some move })] }

def nested : Script :=
  .repeatTimes outer 3 (.forever inner (.instruction turn .turnRight "90" (.instruction move .moveSteps "10" .done))
    .done) .done

def nestedBlock : Block := { inputs := [("TIMES", .value (.text "3"))], substack := some inner }

theorem nested_laid : nested.Laid ((workspace nestedBlock).blocks 0) (some outer) := by
  have three : (JsValue.text "3").Denotes 3 := show Swift.signedDigits "3".toList = some 3 by decide
  refine ⟨rfl, outer_opcode, nestedBlock, .text "3", rfl, rfl, three, ?_, rfl⟩
  refine ⟨rfl, by decide +kernel, _, rfl, ?_, rfl⟩
  refine ⟨rfl, by decide +kernel, _, .text "90", rfl, rfl, rfl, ?_⟩
  exact ⟨rfl, by decide +kernel, _, .text "10", rfl, rfl, rfl, rfl⟩

theorem script_refined_nested : (Vm.create (workspace nestedBlock) fun _ => {}).Completes nested :=
  @script_refined _ _ nested ⟨by decide, ⟨trivial, trivial⟩, trivial⟩ _ 0 hat
    ⟨rfl, hat_opcode, ⟨_, rfl, nested_laid⟩, rfl, nofun⟩

/-- A repeat whose count less one is no number of JavaScript, but rounds to the count. -/
def roundedBlock : Block := { inputs := [("TIMES", .value (.text "18014398509481984"))] }

def rounded : Script := .repeatTimes outer 18014398509481984 .done .done

theorem rounded_carried : (Vm.create (workspace roundedBlock) fun _ => {}).Carries 0 hat rounded := by
  have times : (JsValue.text "18014398509481984").Denotes 18014398509481984 :=
    show Swift.signedDigits "18014398509481984".toList = some 18014398509481984 by decide
  have laid : rounded.Laid ((workspace roundedBlock).blocks 0) (some outer) :=
    ⟨rfl, outer_opcode, _, _, rfl, rfl, times, rfl, rfl⟩
  exact ⟨rfl, hat_opcode, ⟨_, rfl, laid⟩, rfl, nofun⟩

theorem rounded_endless : ((workspace roundedBlock).blocks 0).Endless outer (.finite 18014398509481984) := by
  refine ⟨outer_opcode, ⟨_, _, rfl, rfl, ?_⟩, rfl, ?_, ?_⟩
  · decide +kernel
  · decide +kernel
  · decide

theorem rounded_not_refined : ¬ ∀ script : Script, script.Refined := by
  intro refined
  obtain ⟨steps, completes⟩ := refined rounded _ 0 hat rounded_carried
  have passes : steps ≤ (List.replicate (steps + 1) (steps + 2, 1)).countP (1 ≤ ·.2) := by
    rw [List.countP_replicate]
    simp
  obtain ⟨vm, ran, none, _⟩ := completes (List.replicate (steps + 1) (steps + 2, 1))
    (fun tick member => by rw [List.eq_of_mem_replicate member]; exact Nat.le_add_right steps 2) passes
  obtain ⟨vm', ran', t, threads, _⟩ := Vm.run_endless rounded_carried rounded_endless rfl steps steps
  rw [List.map_replicate, ran'] at ran
  cases ran
  rw [none] at threads
  cases threads

end Loops

end ArRobotCode.Scratch
