import ArRobotCode.Scratch.Script

namespace ArRobotCode.Scratch

open Trapping BlockMachine

def withoutToken (message : String) : String := String.ofList (message.toList.dropWhile (· ≠ ' ')).tail

theorem withoutToken_message {id : String} (spaceless : ∀ c ∈ id.toList, c ≠ ' ') (instruction argument : String) :
    withoutToken (instructionMessage id instruction argument) = instruction ++ " " ++ argument := by
  have dropped : (instructionMessage id instruction argument).toList.dropWhile (· ≠ ' ') =
      ' ' :: (instruction ++ " " ++ argument).toList := by
    have parts : (instructionMessage id instruction argument).toList =
        id.toList ++ ' ' :: (instruction ++ " " ++ argument).toList := by
      simp [instructionMessage]
    rw [parts, List.dropWhile_append_of_pos (by simpa using spaceless)]
    simp
  rw [withoutToken, dropped, List.tail_cons, String.ofList_toList]

def levelOf : BlockId × Option Nat → Level
  | (id, none) => ⟨some id, {}⟩
  | (id, some passes) => ⟨some id, { isLoop := true, loopCounter := some (.finite passes) }⟩

/-- The thread that goes on at `start`, above loops that are under way. -/
def Thread.resumed (start : Option BlockId) (below : List Level) (t : Thread) : Thread :=
  match start, below with
  | some id, below => { t with stack := ⟨some id, {}⟩ :: below }
  | none, [] => { t with stack := [], status := .done }
  | none, level :: below => { t with stack := level :: below }

def Level.Repeats (level : Level) : Prop := level.frame.isLoop = true ∧ level.frame.warpMode = false

namespace Thread

structure Running (target : Nat) (t : Thread) : Prop where
  status : t.status = .running
  alive : t.isKilled = false
  monitor : t.updateMonitor = false
  home : t.target = target

structure Standing (target : Nat) (stack : Stack BlockId) (t : Thread) : Prop where
  levels : t.stack = stack.map levelOf
  passes : ∀ id passes, (id, some passes) ∈ stack → passes ≤ maxExact
  running : stack ≠ [] → t.Running target

variable {target : Nat} {t : Thread}

theorem Standing.top {stack : Stack BlockId} (standing : t.Standing target stack) (under : stack ≠ []) :
    t.peekStack.isSome := by
  rw [Thread.peekStack, standing.levels]
  cases stack with
  | nil => exact absurd rfl under
  | cons entry below =>
    obtain ⟨id, left⟩ := entry
    cases left <;> rfl

theorem Standing.head {id : BlockId} {left : Option Nat} {below : Stack BlockId}
    (standing : t.Standing target ((id, left) :: below)) :
    ∃ frame : Frame, t.stack = ⟨some id, frame⟩ :: below.map levelOf ∧ frame.warpMode = false ∧
      frame.executed = false ∧ frame.loopCounter = left.map fun passes => .finite passes := by
  rw [standing.levels]
  cases left <;> exact ⟨_, rfl, rfl, rfl, rfl⟩

theorem Standing.passes_below {entry : BlockId × Option Nat} {below : Stack BlockId}
    (standing : t.Standing target (entry :: below)) : ∀ id passes, (id, some passes) ∈ below → passes ≤ maxExact :=
  fun id passes member => standing.passes id passes (List.mem_cons_of_mem _ member)

theorem create_standing (serial : Nat) (top : BlockId) (target : Nat) :
    (create serial top target false false).Standing target [(top, none)] :=
  ⟨rfl, by simp, fun _ => ⟨rfl, rfl, rfl, rfl⟩⟩

theorem updateFrame_stack {level : Level} {below : List Level} (stack : t.stack = level :: below)
    (f : Frame → Frame) : (t.updateFrame f).stack = { level with frame := f level.frame } :: below := by
  rw [Thread.updateFrame, stack]

theorem Running.updateFrame (running : t.Running target) (f : Frame → Frame) : (t.updateFrame f).Running target := by
  unfold Thread.updateFrame
  obtain ⟨status, alive, monitor, home⟩ := running
  cases t.stack <;> exact ⟨status, alive, monitor, home⟩

theorem Running.pushStack (running : t.Running target) (id : Option BlockId) : (t.pushStack id).Running target :=
  ⟨running.status, running.alive, running.monitor, running.home⟩

theorem Running.stepToBranch (running : t.Running target) (blocks : Blocks) (branchNum : Nat) (isLoop : Bool) :
    (t.stepToBranch blocks branchNum isLoop).Running target :=
  (running.updateFrame _).pushStack _

theorem Running.switchFrom (running : t.Running target) (id : BlockId) (blocks : Blocks) :
    (t.switchFrom id blocks).Running target := by
  unfold Thread.switchFrom
  split
  · unfold goToNextBlock reuseStackForNextBlock
    obtain ⟨status, alive, monitor, home⟩ := running
    cases t.stack <;> exact ⟨status, alive, monitor, home⟩
  · exact running

theorem Running.resumed {below : Stack BlockId} {start : Option BlockId} (running : t.Running target)
    (passes : ∀ id passes, (id, some passes) ∈ below → passes ≤ maxExact) :
    (t.resumed start (below.map levelOf)).Standing target (resume start below) := by
  obtain ⟨status, alive, monitor, home⟩ := running
  cases start with
  | some id =>
    refine ⟨rfl, ?_, fun _ => ⟨status, alive, monitor, home⟩⟩
    intro id' passes' member
    rcases List.mem_cons.mp member with same | inside
    · cases same
    · exact passes id' passes' inside
  | none =>
    cases below with
    | nil => exact ⟨rfl, passes, nofun⟩
    | cons entry below => exact ⟨rfl, passes, fun _ => ⟨status, alive, monitor, home⟩⟩

end Thread

theorem repeats_of_nested {stack : Stack BlockId} (loops : ∀ entry ∈ stack, entry.2.isSome) :
    ∀ level ∈ stack.map levelOf, level.Repeats := by
  intro level member
  obtain ⟨⟨id, left⟩, inside, rfl⟩ := List.mem_map.mp member
  cases left with
  | none => cases loops _ inside
  | some passes => exact ⟨rfl, rfl⟩

namespace Vm

structure Posts (vm : Vm) (orders : List String) (vm' : Vm) : Prop where
  project : vm'.project = vm.project
  posted : ∃ messages, vm'.posted = vm.posted ++ messages ∧ messages.map withoutToken = orders

theorem Posts.refl (vm : Vm) : vm.Posts [] vm := ⟨rfl, [], by simp, rfl⟩

theorem Posts.trans {vm middle vm' : Vm} {first second : List String} (one : vm.Posts first middle)
    (two : middle.Posts second vm') : vm.Posts (first ++ second) vm' := by
  obtain ⟨messages, posted, orders⟩ := one.posted
  obtain ⟨messages', posted', orders'⟩ := two.posted
  refine ⟨two.project.trans one.project, messages ++ messages', ?_, ?_⟩
  · rw [posted', posted, List.append_assoc]
  · rw [List.map_append, orders, orders']

def only (vm : Vm) (t : Thread) : Vm := { vm with threads := [t] }

section Alone

variable {vm vm' : Vm} {t t' : Thread}

theorem eq_only {t : Thread} (threads : vm.threads = [t]) : vm = vm.only t := by
  cases vm
  cases threads
  rfl

@[simp] theorem run_thread : (thread 0).run (vm.only t) = .ok t (vm.only t) := rfl

@[simp] theorem run_updateThread (f : Thread → Thread) :
    (updateThread 0 f).run (vm.only t) = .ok () (vm.only (f t)) := rfl

@[simp] theorem run_blocksOf (u : Thread) : (blocksOf u).run vm = .ok (vm.project.blocks u.target) vm := rfl

theorem run_givesWay {frame : Frame} (plain : frame.warpMode = false) : (givesWay frame).run vm = .ok true vm := by
  unfold givesWay
  rw [plain]
  rfl

theorem run_unwind {start : Option BlockId} {below : List Level} (stack : t.stack = ⟨start, {}⟩ :: below)
    (loops : ∀ level ∈ below, level.Repeats) (depth : Nat) :
    (unwind 0 (depth + 1)).run (vm.only t) = .ok start.isSome (vm.only (t.resumed start below)) := by
  unfold unwind
  rw [EStateM.run_bind, run_thread]
  dsimp only
  cases start with
  | some id =>
    have top : t.peekStack.isSome = true := by simp [Thread.peekStack, stack]
    rw [if_pos top]
    simp only [Thread.resumed, ← stack]
    rfl
  | none =>
    have top : ¬ t.peekStack.isSome = true := by simp [Thread.peekStack, stack]
    rw [if_neg top, EStateM.run_bind, run_updateThread]
    dsimp only
    rw [EStateM.run_bind, run_thread]
    cases below with
    | nil =>
      simp only [Thread.popStack, stack, List.tail_cons]
      rfl
    | cons level below =>
      obtain ⟨isLoop, plain⟩ := loops level List.mem_cons_self
      simp only [Thread.popStack, stack, List.tail_cons, isLoop, if_true]
      rw [EStateM.run_bind, run_givesWay plain]
      rfl

theorem run_readInput {block : Block} {name : String} {value : JsValue} (constant : block.constant name = some value) :
    (readInput block name).run vm = .ok value vm := by
  unfold Block.constant at constant
  unfold readInput
  cases input : block.input name with
  | none =>
    simp only [input, Option.some.injEq] at constant
    rw [← constant]
    rfl
  | some input' =>
    simp only [input] at constant
    cases input' with
    | value value' =>
      cases constant
      rfl
    | reporter => cases constant

theorem run_loopTimes (times : Count) {counter : Count}
    (counts : (t.peekStackFrame.loopCounter.getD times).decrement = counter) :
    (loopTimes 0 times).run (vm.only t) = .ok () (vm.only
      (if counter.nonnegative then
        (t.updateFrame ({ · with loopCounter := some counter })).stepToBranch (vm.project.blocks t.target) 1 true
      else t.updateFrame ({ · with loopCounter := some counter }))) := by
  unfold loopTimes
  rw [EStateM.run_bind, run_thread]
  dsimp only
  rw [counts, EStateM.run_bind, run_updateThread]
  dsimp only
  cases counter.nonnegative with
  | false => rfl
  | true =>
    have target : (t.updateFrame ({ · with loopCounter := some counter })).target = t.target := by
      unfold Thread.updateFrame
      cases t.stack <;> rfl
    rw [if_pos rfl, if_pos rfl, ← target]
    rfl

theorem switched_from {id : BlockId} {target : Nat} {frame : Frame} {below : List Level} {after : Option BlockId}
    (stack : t.stack = ⟨some id, frame⟩ :: below) (plain : frame.warpMode = false)
    (following : (vm.project.blocks target).getNextBlock id = after) :
    (t.switchFrom id (vm.project.blocks target)).stack = ⟨after, {}⟩ :: below := by
  have top : t.peekStack = some id := by rw [Thread.peekStack, stack]
  rw [Thread.switchFrom, if_pos top, Thread.goToNextBlock, Thread.reuseStackForNextBlock, top, stack]
  simp [Frame.reuse, plain, following]

theorem stepped_to {id : BlockId} {target : Nat} {frame : Frame} {below : List Level} {branch : Option BlockId}
    (stack : t.stack = ⟨some id, frame⟩ :: below) (plain : frame.warpMode = false)
    (first : (vm.project.blocks target).getBranch id 1 = branch) (counter : Count) :
    ((t.updateFrame ({ · with loopCounter := some counter })).stepToBranch (vm.project.blocks target) 1 true).stack =
      ⟨branch, {}⟩ :: ⟨some id, { frame with isLoop := true, loopCounter := some counter }⟩ :: below := by
  simp [Thread.stepToBranch, Thread.pushStack, Thread.updateFrame, Thread.peekStack, Thread.peekStackFrame, stack,
    first, plain]

variable [JavaScript]

theorem run_instruct {id : BlockId} {robot : RobotBlock} {value : JsValue} {message : String}
    (posts : robot.message (printedEntry (robot.entry t)) value = some message) :
    ∃ vm' : Vm, (instruct 0 id robot value).run (vm.only t) = .ok () (vm'.only t) ∧ vm'.project = vm.project ∧
      vm'.posted = vm.posted ++ [message] := by
  unfold instruct
  rw [EStateM.run_bind, EStateM.run_get]
  dsimp only [only]
  rw [posts]
  dsimp only
  let recorded : Vm := { vm with
    posted := vm.posted ++ [message]
    executions := vm.executions ++ [⟨[t], 0, id, robot, message⟩] }
  cases robot.movesTarget with
  | false => exact ⟨recorded, rfl, rfl, rfl⟩
  | true =>
    exact ⟨{ recorded with
      moment := vm.moment + 1
      redrawRequested := vm.redrawRequested || (vm.world vm.moment).redraws }, rfl, rfl, rfl⟩

variable [Opcodes] {id : BlockId} {block : Block}

theorem run_executeBlocks {start : Option BlockId} {below : List Level} {blocks : Blocks}
    (top : t.peekStack = some id) (executed : (execute 0).run (vm.only t) = .ok () (vm'.only t'))
    (running : t'.status = .running) (same : vm'.project.blocks t'.target = blocks)
    (stack : (t'.switchFrom id blocks).stack = ⟨start, {}⟩ :: below) (loops : ∀ level ∈ below, level.Repeats)
    (fuel : Nat) :
    (executeBlocks 0 (fuel + 1)).run (vm.only t) =
      if start.isSome then (executeBlocks 0 fuel).run (vm'.only ((t'.switchFrom id blocks).resumed start below))
      else .ok () (vm'.only ((t'.switchFrom id blocks).resumed start below)) := by
  rw [executeBlocks, EStateM.run_bind, run_thread]
  dsimp only
  rw [top]
  dsimp only
  rw [EStateM.run_bind, executed]
  dsimp only
  rw [EStateM.run_bind, run_thread]
  dsimp only
  rw [running]
  dsimp only
  rw [EStateM.run_bind, run_blocksOf]
  dsimp only
  have same' : (vm'.only t').project.blocks t'.target = blocks := same
  rw [same', EStateM.run_bind, run_updateThread]
  dsimp only
  rw [EStateM.run_bind, run_unwind stack loops]
  dsimp only
  cases start with
  | none => rfl
  | some id => rfl

theorem run_execute (top : t.peekStack = some id) (monitor : t.updateMonitor = false)
    (found : (vm.project.blocks t.target).getBlock id = some block) :
    (execute 0).run (vm.only t) = (primitive 0 id block).run (vm.only t) := by
  have located : (vm.only t).findBlock t id = some block := by
    simp [findBlock, only, monitor, found]
  unfold execute
  rw [EStateM.run_bind, run_thread]
  dsimp only
  rw [top]
  dsimp only
  rw [EStateM.run_bind, EStateM.run_get]
  dsimp only
  rw [located]

theorem run_emit {target : Nat} {messages : List String} {after : Option BlockId} (here : t.target = target)
    (monitor : t.updateMonitor = false) (top : t.peekStack = some id)
    (node : (vm.project.blocks target).node id = some (.emit messages after)) :
    (vm.project.blocks target).getNextBlock id = after ∧
    ∃ (vm' : Vm) (posted : List String), (execute 0).run (vm.only t) = .ok () (vm'.only t) ∧
      vm'.project = vm.project ∧ vm'.posted = vm.posted ++ posted ∧ posted.map withoutToken = messages := by
  subst here
  obtain ⟨block, found, next, emits⟩ := Blocks.node_emit node
  refine ⟨by simp [Blocks.getNextBlock, found, next], ?_⟩
  rw [run_execute top monitor found]
  unfold primitive
  rcases emits with ⟨opcode, rfl⟩ | ⟨robot, value, argument, opcode, constant, reads, rfl⟩
  · refine ⟨vm, [], ?_, rfl, by simp, rfl⟩
    rw [opcode]
    rfl
  · have posts : robot.message (printedEntry (robot.entry t)) value =
        some (instructionMessage (printedEntry (robot.entry t)) robot.instruction argument) := by
      rw [RobotBlock.message_eq, reads]
      rfl
    obtain ⟨vm', ran, project, posted⟩ := @run_instruct vm t _ id robot value _ posts
    refine ⟨vm', _, ?_, project, posted, ?_⟩
    · rw [opcode]
      dsimp only
      rw [EStateM.run_bind, run_readInput constant]
      exact ran
    · rw [List.map_singleton, withoutToken_message fun c member => (printedEntry_ascii _ c member).2]
      rfl

theorem run_loop {target times : Nat} {branch after : Option BlockId} (here : t.target = target)
    (monitor : t.updateMonitor = false) (top : t.peekStack = some id)
    (node : (vm.project.blocks target).node id = some (.loop times branch after)) :
    (vm.project.blocks target).getNextBlock id = after ∧ (vm.project.blocks target).getBranch id 1 = branch ∧
    branch ≠ some id ∧ ∃ count : Count, count.passes = some times ∧
      (execute 0).run (vm.only t) = (loopTimes 0 count).run (vm.only t) := by
  subst here
  obtain ⟨block, found, next, inner, acyclic, loops⟩ := Blocks.node_loop node
  refine ⟨by simp [Blocks.getNextBlock, found, next], by simp [Blocks.getBranch, found, inner], acyclic, ?_⟩
  rw [run_execute top monitor found]
  unfold primitive
  rcases loops with ⟨opcode, rfl⟩ | ⟨value, opcode, constant, counts⟩
  · refine ⟨.finite 500, by decide, ?_⟩
    rw [opcode]
  · refine ⟨_, counts, ?_⟩
    rw [opcode]
    dsimp only
    rw [EStateM.run_bind, run_readInput constant]

/-- One execution leads the thread to where the machine is next; there it goes on at once or gives way to others. -/
def Leads (target : Nat) (vm : Vm) (t : Thread) (vm' : Vm) (next : Stack BlockId) : Prop :=
  ∃ (t' : Thread) (goesOn : Bool), (∀ fuel, (executeBlocks 0 (fuel + 1)).run (vm.only t) =
      if goesOn then (executeBlocks 0 fuel).run (vm'.only t') else .ok () (vm'.only t')) ∧
    t'.Standing target next ∧ (goesOn = true → next ≠ [])

theorem run_to {target : Nat} {start : Option BlockId} {below : Stack BlockId} (top : t.peekStack = some id)
    (executed : (execute 0).run (vm.only t) = .ok () (vm'.only t')) (project : vm'.project = vm.project)
    (running : t'.Running target)
    (stack : (t'.switchFrom id (vm.project.blocks target)).stack = ⟨start, {}⟩ :: below.map levelOf)
    (loops : ∀ entry ∈ below, entry.2.isSome)
    (passes : ∀ id passes, (id, some passes) ∈ below → passes ≤ maxExact) :
    Leads target vm t vm' (resume start below) := by
  have blocks : vm'.project.blocks t'.target = vm.project.blocks target := by rw [project, running.home]
  have ran := run_executeBlocks top executed running.status blocks stack (repeats_of_nested loops)
  refine ⟨_, _, ran, (running.switchFrom id _).resumed passes, ?_⟩
  cases start with
  | none => nofun
  | some first => exact fun _ => List.cons_ne_nil _ _

theorem run_enter {target passes : Nat} {branch : Option BlockId} {below : Stack BlockId} {frame : Frame}
    (running : t.Running target) (stack : t.stack = ⟨some id, frame⟩ :: below.map levelOf)
    (plain : frame.warpMode = false) (uncalled : frame.executed = false)
    (executed : (execute 0).run (vm.only t) = .ok () (vm.only
      ((t.updateFrame ({ · with loopCounter := some (.finite passes) })).stepToBranch
        (vm.project.blocks target) 1 true)))
    (first : (vm.project.blocks target).getBranch id 1 = branch) (acyclic : branch ≠ some id)
    (loops : ∀ entry ∈ below, entry.2.isSome)
    (counts : ∀ id passes, (id, some passes) ∈ below → passes ≤ maxExact) (small : passes + 1 ≤ maxExact) :
    Leads target vm t vm (resume branch ((id, some passes) :: below)) := by
  have top : t.peekStack = some id := by rw [Thread.peekStack, stack]
  have entered := stepped_to stack plain first (.finite passes)
  have frames : ({ frame with isLoop := true, loopCounter := some (.finite passes) } : Frame) =
      { isLoop := true, loopCounter := some (.finite passes) } := by
    cases frame
    simp_all
  rw [frames] at entered
  apply run_to top executed rfl ((running.updateFrame _).stepToBranch _ 1 true)
  · -- The branch is another block, so the control flow is left as it is.
    rw [Thread.switchFrom, Thread.peekStack, entered, if_neg acyclic, entered]
    rfl
  · intro entry member
    rcases List.mem_cons.mp member with same | inside
    · rw [same]
      rfl
    · exact loops entry inside
  · intro id' passes' member
    rcases List.mem_cons.mp member with same | inside
    · cases same
      omega
    · exact counts id' passes' inside

theorem run_step_emit {target : Nat} {left : Option Nat} {below : Stack BlockId} {messages : List String}
    {after : Option BlockId} (standing : t.Standing target ((id, left) :: below))
    (nested : Nested ((id, left) :: below))
    (node : (vm.project.blocks target).node id = some (.emit messages after)) :
    ∃ vm', Leads target vm t vm' (resume after below) ∧ vm.Posts messages vm' := by
  obtain ⟨frame, stack, plain, _⟩ := standing.head
  have running := standing.running (List.cons_ne_nil _ _)
  have top : t.peekStack = some id := by rw [Thread.peekStack, stack]
  obtain ⟨following, vm', posted, executed, project, posts, orders⟩ := run_emit running.home running.monitor top node
  have leads := run_to top executed project running (switched_from stack plain following) nested standing.passes_below
  exact ⟨vm', leads, project, posted, posts, orders⟩

theorem run_step_loop {target times : Nat} {left : Option Nat} {below next : Stack BlockId} {orders : List String}
    {branch after : Option BlockId} (standing : t.Standing target ((id, left) :: below))
    (nested : Nested ((id, left) :: below))
    (node : (vm.project.blocks target).node id = some (.loop times branch after))
    (stepped : BlockMachine.step (vm.project.blocks target).node ((id, left) :: below) = some (orders, next)) :
    orders = [] ∧ Leads target vm t vm next := by
  obtain ⟨frame, stack, plain, uncalled, counted⟩ := standing.head
  have running := standing.running (List.cons_ne_nil _ _)
  have top : t.peekStack = some id := by rw [Thread.peekStack, stack]
  obtain ⟨following, first, acyclic, count, counts, executed⟩ := run_loop running.home running.monitor top node
  have current : (t.peekStackFrame.loopCounter.getD count).passes = some (left.getD times) := by
    rw [Thread.peekStackFrame, stack]
    dsimp only
    rw [counted]
    cases left with
    | none => exact counts
    | some passes => exact Count.passes_finite (standing.passes id passes List.mem_cons_self)
  rw [run_loopTimes count rfl, running.home] at executed
  simp only [BlockMachine.step, node] at stepped
  cases passes : left.getD times with
  | zero =>
    rw [passes] at current
    simp only [passes] at stepped
    cases stepped
    rw [if_neg (by rw [Count.decrement_of_no_passes current]; decide)] at executed
    have updated := t.updateFrame_stack stack
      ({ · with loopCounter := some (t.peekStackFrame.loopCounter.getD count).decrement })
    exact ⟨rfl, run_to top executed rfl (running.updateFrame _) (switched_from updated plain following) nested
      standing.passes_below⟩
  | succ passes' =>
    rw [passes] at current
    simp only [passes] at stepped
    cases stepped
    rw [if_pos (by rw [Count.decrement_of_passes current]; simp [Count.nonnegative]),
      Count.decrement_of_passes current] at executed
    exact ⟨rfl, run_enter running stack plain uncalled executed first acyclic nested standing.passes_below
      (Count.passes_le current)⟩

theorem run_step {target : Nat} {stack next : Stack BlockId} {orders : List String}
    (standing : t.Standing target stack) (nested : Nested stack)
    (stepped : BlockMachine.step (vm.project.blocks target).node stack = some (orders, next)) :
    ∃ vm', Leads target vm t vm' next ∧ vm.Posts orders vm' := by
  cases stack with
  | nil => cases stepped
  | cons entry below =>
    obtain ⟨id, left⟩ := entry
    cases node : (vm.project.blocks target).node id with
    | none => simp [BlockMachine.step, node] at stepped
    | some found =>
      cases found with
      | emit messages after =>
        simp only [BlockMachine.step, node] at stepped
        cases stepped
        exact run_step_emit standing nested node
      | loop times branch after =>
        obtain ⟨rfl, leads⟩ := run_step_loop standing nested node stepped
        exact ⟨vm, leads, .refl vm⟩

theorem run_until_yield {target : Nat} {n fuel : Nat} {stack : Stack BlockId} {orders : List String}
    (standing : t.Standing target stack) (nested : Nested stack) (under : stack ≠ [])
    (steps : Steps (vm.project.blocks target).node n stack orders []) (enough : n ≤ fuel) :
    ∃ (vm' : Vm) (t' : Thread) (stack' : Stack BlockId) (m : Nat) (first rest : List String),
      (executeBlocks 0 fuel).run (vm.only t) = .ok () (vm'.only t') ∧ m < n ∧ t'.Standing target stack' ∧
      Nested stack' ∧ Steps (vm.project.blocks target).node m stack' rest [] ∧ orders = first ++ rest ∧
      vm.Posts first vm' := by
  induction n generalizing vm t stack orders fuel with
  | zero =>
    cases steps
    exact absurd rfl under
  | succ n ih =>
    cases steps with
    | step first later =>
      rename_i middle emitted rest
      obtain ⟨vm₁, ⟨t₁, goesOn, ran, standing₁, more⟩, posts⟩ := run_step standing nested first
      obtain ⟨fuel, rfl⟩ := Nat.exists_eq_add_of_le' (show 1 ≤ fuel by omega)
      cases goesOn with
      | false =>
        exact ⟨vm₁, t₁, middle, n, emitted, rest, ran fuel, Nat.lt_succ_self n, standing₁, nested.step first, later,
          rfl, posts⟩
      | true =>
        rw [← posts.project] at later
        obtain ⟨vm₂, t₂, stack₂, m, early, late, ran₂, fewer, standing₂, nested₂, steps₂, parts, posts₂⟩ :=
          ih standing₁ (nested.step first) (more rfl) later (show n ≤ fuel by omega)
        rw [posts.project] at steps₂
        refine ⟨vm₂, t₂, stack₂, m, emitted ++ early, late, (ran fuel).trans ran₂, by omega, standing₂, nested₂, steps₂,
          ?_, posts.trans posts₂⟩
        rw [parts, List.append_assoc]

theorem run_visit (running : t.status = .running) (top : t.peekStack.isSome) {fuel : Nat}
    (ran : (executeBlocks 0 fuel).run (vm.only t) = .ok () (vm'.only t')) :
    (visit fuel 0).run (vm.only t) = .ok (decide (t'.status = .running), t'.finished) (vm'.only t') := by
  have unfinished : t.finished = false := by
    unfold Thread.peekStack at top
    unfold Thread.finished
    rw [running]
    cases stack : t.stack with
    | nil => simp [stack] at top
    | cons level below => rfl
  have popped : t.popNull = t := by
    unfold Thread.popNull
    rw [if_neg (Option.isSome_iff_ne_none.mp top)]
  unfold visit
  rw [EStateM.run_bind, run_thread]
  dsimp only
  rw [unfinished, if_neg (by decide), EStateM.run_bind, stepReady, if_pos (.inl running), stepThread,
    EStateM.run_bind, run_updateThread]
  dsimp only
  rw [popped, ran]
  rfl

end Alone

end Vm

end ArRobotCode.Scratch
