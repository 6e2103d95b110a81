import ArRobotCode.Scratch.CourseSteps

namespace ArRobotCode.Scratch.Course

open Structured Trapping Vm

variable [JavaScript] [Opcodes] {c : Course} {size n : Nat} {bound : Nat → Nat} {i : Nat} {t : Thread}
  {said : List String} {id : BlockId} {b : Block} {blocks : Blocks} {below : List Level} {frame : Frame}
  {p q body next : Program} {k : List Program}

/-- How the execution of a block may leave its thread, with at most `n` steps to go where that is known. -/
inductive Outcome (c : Course) (size : Nat) (bound : Nat → Nat) (i : Nat) (id : BlockId) (n : Nat) (vm : Vm) : Prop
  | gone {t : Thread} (ticks : c.Ticks size bound vm) (found : vm.threads[i]? = some t) (status : t.status = .done)
      (stack : t.stack = [])
  | waits {t : Thread} (ticks : c.Ticks size bound vm) (found : vm.threads[i]? = some t)
      (status : t.status = .promiseWait)
  | yields {t : Thread} {said : List String} {k : List Program} (turn : c.Turn size bound i t said vm)
      (status : t.status = .yield) (top : t.peekStack.isSome) (stands : Stands (c.project.blocks t.target) t.stack k)
      (continues : c.Continues said t.serial k) (unsteady : ¬ c.steady)
  | runs {t : Thread} {said : List String} {k : List Program} (turn : c.Turn size bound i t said vm)
      (status : t.status = .running)
      (stands : Stands (c.project.blocks t.target) (t.switchFrom id (c.project.blocks t.target)).stack k)
      (continues : c.Continues said t.serial k) (few : c.steady → stepsLeft k ≤ n)

theorem triple_outcome {α : Type} {x : Js α} {post : α → Vm → Prop} {trap : Fault → Vm → Prop}
    (gone : ∀ t : Thread, t.status = .done → t.stack = [] →
      Triple (fun vm => c.Ticks size bound vm ∧ vm.threads[i]? = some t) x post trap)
    (waits : ∀ t : Thread, t.status = .promiseWait →
      Triple (fun vm => c.Ticks size bound vm ∧ vm.threads[i]? = some t) x post trap)
    (yields : ∀ (t : Thread) (said : List String) (k : List Program), t.status = .yield → t.peekStack.isSome →
      Stands (c.project.blocks t.target) t.stack k → c.Continues said t.serial k → ¬ c.steady →
        Triple (c.Turn size bound i t said) x post trap)
    (runs : ∀ (t : Thread) (said : List String) (k : List Program), t.status = .running →
      Stands (c.project.blocks t.target) (t.switchFrom id (c.project.blocks t.target)).stack k →
        c.Continues said t.serial k → (c.steady → stepsLeft k ≤ n) → Triple (c.Turn size bound i t said) x post trap) :
    Triple (c.Outcome size bound i id n) x post trap := by
  intro vm outcome
  cases outcome with
  | gone ticks found status stack => exact gone _ status stack vm ⟨ticks, found⟩
  | waits ticks found status => exact waits _ status vm ⟨ticks, found⟩
  | yields turn status top stands continues unsteady =>
    exact yields _ _ _ status top stands continues unsteady vm turn
  | runs turn status stands continues few => exact runs _ _ _ status stands continues few vm turn

section Stacks

omit [JavaScript] in
theorem Continues.leads {k k' : List Program} {serial : Nat} {word : List String}
    (continues : c.Continues said serial k) (leads : Leads k word k') (calm : c.steady → ∀ p ∈ k', p.Steady) :
    c.Continues (said ++ word) serial k' := by
  refine ⟨fun rest member => ?_, calm⟩
  rw [List.append_assoc]
  exact continues.words _ (leads rest member)

omit [JavaScript] in
theorem Continues.silent {k k' : List Program} {serial : Nat} (continues : c.Continues said serial k)
    (leads : Leads k [] k') (calm : c.steady → ∀ p ∈ k', p.Steady) : c.Continues said serial k' := by
  simpa only [List.append_nil] using continues.leads leads calm

theorem stands_switched (stack : t.stack = ⟨some id, frame⟩ :: below) (plain : frame.warpMode = false)
    (found : blocks.getBlock id = some b) (rest : next.Laid blocks b.next)
    (later : List.Forall₂ (Awaits blocks) below k) : Stands blocks (t.switchFrom id blocks).stack (next :: k) := by
  have top : t.peekStack = some id := by rw [Thread.peekStack, stack]
  have switched : (t.switchFrom id blocks).stack = ⟨b.next, {}⟩ :: below := by
    rw [Thread.switchFrom, if_pos top, Thread.goToNextBlock, Thread.reuseStackForNextBlock, top, stack]
    simp [Frame.reuse, plain, Blocks.getNextBlock, found]
  rw [switched]
  exact .on (.fresh rest) later

theorem stands_entered (stack : t.stack = ⟨some id, frame⟩ :: below) (plain : frame.warpMode = false) {branchNum : Nat}
    {isLoop : Bool} (acyclic : blocks.getBranch id branchNum ≠ some id)
    (inner : body.Laid blocks (blocks.getBranch id branchNum))
    (awaits : Awaits blocks ⟨some id, { frame with isLoop }⟩ q) (later : List.Forall₂ (Awaits blocks) below k) :
    Stands blocks ((t.stepToBranch blocks branchNum isLoop).switchFrom id blocks).stack (body :: q :: k) := by
  have entered : (t.stepToBranch blocks branchNum isLoop).stack =
      ⟨blocks.getBranch id branchNum, {}⟩ :: ⟨some id, { frame with isLoop }⟩ :: below := by
    simp [Thread.stepToBranch, Thread.pushStack, Thread.updateFrame, Thread.peekStack, Thread.peekStackFrame,
      stack, plain]
  have top : (t.stepToBranch blocks branchNum isLoop).peekStack ≠ some id := by
    rw [Thread.peekStack, entered]
    exact acyclic
  rw [Thread.switchFrom, if_neg top, entered]
  exact .on (.fresh inner) (.cons awaits later)

end Stacks

/-- A fault leaves the threads at rest, and strikes only where programs are not known to be steady. -/
def Halts (c : Course) (size : Nat) (bound : Nat → Nat) (_ : Fault) (vm : Vm) : Prop :=
  c.Ticks size bound vm ∧ ¬ c.steady

section Says

variable {robot : RobotBlock}

omit [Opcodes] in
theorem order_mem {value : JsValue} {argument : String} (same : ∀ v, b.constant robot.input = some v → value = v)
    (reads : robot.argument value = some argument) : robot.order argument ∈ b.orders robot := by
  unfold Block.orders
  cases constant : b.constant robot.input with
  | none => exact ⟨argument, rfl⟩
  | some v =>
    rw [← same v constant]
    simp [reads]

omit [Opcodes] in
theorem reads_of_subsingleton {value : JsValue} (same : ∀ v, b.constant robot.input = some v → value = v)
    (nonempty : (b.orders robot).Nonempty) (single : (b.orders robot).Subsingleton) : robot.argument value ≠ none := by
  intro fails
  unfold Block.orders at nonempty single
  cases constant : b.constant robot.input with
  | none =>
    rw [constant] at single
    have equal := single ⟨"", rfl⟩ ⟨" ", rfl⟩
    have lengths := congrArg String.length equal
    simp [RobotBlock.order, String.length_append] at lengths
  | some v =>
    rw [constant] at nonempty
    obtain ⟨order, member⟩ := nonempty
    rw [← same v constant] at member
    simp [fails] at member

theorem triple_emit (status : t.status = .running) (stack : t.stack = ⟨some id, {}⟩ :: below)
    (opcode : Opcodes.opcode id = .robot robot)
    (found : (c.project.blocks t.target).getBlock id = some b) (nonempty : (b.orders robot).Nonempty)
    (rest : next.Laid (c.project.blocks t.target) b.next)
    (later : List.Forall₂ (Awaits (c.project.blocks t.target)) below k)
    (stands : Stands (c.project.blocks t.target) t.stack (.emit id (b.orders robot) next :: k))
    (continues : c.Continues said t.serial (.emit id (b.orders robot) next :: k))
    (few : c.steady → stepsLeft (.emit id (b.orders robot) next :: k) ≤ n + 1) :
    Triple (c.Turn size bound i t said) (primitive i id b) (fun _ => c.Outcome size bound i id n)
      (c.Halts size bound) := by
  unfold primitive
  rw [opcode]
  apply (triple_value Turn.moment b robot.input).bind
  intro value vm both
  obtain ⟨turn, same⟩ := both
  cases reads : robot.argument value with
  | none =>
    have unsteady : ¬ c.steady := fun steady =>
      reads_of_subsingleton same nonempty (continues.calm steady _ List.mem_cons_self).1 reads
    rw [run_instruct_fails turn.found reads]
    exact ⟨turn.rest (.on status stands continues (fun steady => absurd steady unsteady) (by simp [Settled, stack])),
      unsteady⟩
  | some argument =>
    obtain ⟨vm', x, ran, executing, message, project, threads, posted, executions, serial, pending⟩ :=
      run_instruct_at id turn.found reads
    have onward := stands_switched stack rfl found rest later
    have said' : c.Continues (said ++ [robot.order argument]) t.serial (next :: k) := by
      apply continues.leads (.emit (order_mem same reads))
      intro steady p member
      rcases List.mem_cons.mp member with rfl | inside
      · exact (continues.calm steady _ List.mem_cons_self).2
      · exact continues.calm steady p (List.mem_cons_of_mem _ inside)
    obtain ⟨word, possible⟩ := remaining_nonempty onward.vocal
    rw [ran]
    refine .runs (turn.record executing message ⟨_, said'.words word possible, List.prefix_append _ _⟩ project threads
      posted (ne_flag message) executions serial pending) status onward said' fun steady => ?_
    have enough := few steady
    rw [stepsLeft_cons, Program.steps] at enough
    rw [stepsLeft_cons]
    omega

end Says

section Loops

omit [JavaScript] [Opcodes] in
theorem passes_left {count : Count} {times left : Option Nat} (frames : frame = {} ∧ left = times ∨ frame.Counts left)
    (counts : ∀ m, times = some m → count.passes = some m) {m : Nat} (passes : left = some m) :
    (frame.loopCounter.getD count).passes = some m := by
  rcases frames with ⟨rfl, same⟩ | counted
  · exact counts m (same ▸ passes)
  · rw [passes] at counted
    obtain ⟨rfl, small⟩ := counted
    exact Count.passes_finite small

omit [JavaScript] [Opcodes] in
theorem loop_frame {times left : Option Nat} (frames : frame = {} ∧ left = times ∨ frame.Counts left) :
    frame.warpMode = false ∧ ∀ counter, { frame with isLoop := true, loopCounter := counter } =
      ({ isLoop := true, loopCounter := counter } : Frame) := by
  rcases frames with ⟨rfl, _⟩ | counted
  · exact ⟨rfl, fun _ => rfl⟩
  · cases left with
    | none =>
      obtain ⟨_, rfl⟩ := counted
      exact ⟨rfl, fun _ => rfl⟩
    | some m =>
      obtain ⟨rfl, _⟩ := counted
      exact ⟨rfl, fun _ => rfl⟩

omit [JavaScript] in
theorem Continues.calm_loop {serial : Nat} {left : Option Nat}
    (continues : c.Continues said serial (.loop id left body next :: k)) (steady : c.steady) :
    left.isSome ∧ body.Steady ∧ next.Steady ∧ ∀ p ∈ k, p.Steady := by
  obtain ⟨known, inner, rest⟩ := continues.calm steady _ List.mem_cons_self
  exact ⟨known, inner, rest, fun p member => continues.calm steady p (List.mem_cons_of_mem _ member)⟩

omit [JavaScript] in
theorem Continues.entered {serial : Nat} {left left' : Option Nat}
    (continues : c.Continues said serial (.loop id left body next :: k))
    (leads : Leads (.loop id left body next :: k) [] (body :: .loop id left' body next :: k))
    (known : left.isSome → left'.isSome) : c.Continues said serial (body :: .loop id left' body next :: k) := by
  apply continues.silent leads
  intro steady
  obtain ⟨known', inner, rest, others⟩ := continues.calm_loop steady
  simp only [List.forall_mem_cons]
  exact ⟨inner, ⟨known known', inner, rest⟩, others⟩

omit [JavaScript] in
theorem Continues.left {serial : Nat} {left : Option Nat}
    (continues : c.Continues said serial (.loop id left body next :: k))
    (leads : Leads (.loop id left body next :: k) [] (next :: k)) : c.Continues said serial (next :: k) := by
  apply continues.silent leads
  intro steady
  obtain ⟨_, _, rest, others⟩ := continues.calm_loop steady
  simp only [List.forall_mem_cons]
  exact ⟨rest, others⟩

variable {times left : Option Nat}

theorem triple_counted {count : Count} {trap : Fault → Vm → Prop} (status : t.status = .running)
    (stack : t.stack = ⟨some id, frame⟩ :: below) (found : (c.project.blocks t.target).getBlock id = some b)
    (loops : b.times id = some times) (known : times.isSome = left.isSome)
    (frames : frame = {} ∧ left = times ∨ frame.Counts left) (counts : ∀ m, times = some m → count.passes = some m)
    (inner : body.Laid (c.project.blocks t.target) b.substack) (rest : next.Laid (c.project.blocks t.target) b.next)
    (acyclic : b.substack ≠ some id) (later : List.Forall₂ (Awaits (c.project.blocks t.target)) below k)
    (continues : c.Continues said t.serial (.loop id left body next :: k))
    (few : c.steady → stepsLeft (.loop id left body next :: k) ≤ n + 1) :
    Triple (c.Turn size bound i t said) (loopTimes i count) (fun _ => c.Outcome size bound i id n) trap := by
  obtain ⟨plain, whole⟩ := loop_frame frames
  have branch : (c.project.blocks t.target).getBranch id 1 = b.substack := by simp [Blocks.getBranch, found]
  have current : t.peekStackFrame.loopCounter = frame.loopCounter := by rw [Thread.peekStackFrame, stack]
  generalize counter : (t.peekStackFrame.loopCounter.getD count).decrement = after
  have counted := Thread.updateFrame_stack stack ({ · with loopCounter := some after })
  have same := Thread.same_updateFrame ({ · with loopCounter := some after }) t
  have running := (Thread.updateFrame_status ({ · with loopCounter := some after }) t).trans status
  apply (triple_loopTimes count counter).conclude
  intro _ vm turn
  rw [current] at counter
  have enter : after.nonnegative = true → ∀ left', Frame.Counts { isLoop := true, loopCounter := some after } left' →
      times.isSome = left'.isSome → Leads (.loop id left body next :: k) [] (body :: .loop id left' body next :: k) →
      (c.steady → stepsLeft (body :: .loop id left' body next :: k) ≤ n) → c.Outcome size bound i id n vm := by
    intro more left' counts' known' leads fewer
    rw [if_pos more] at turn
    have stands : Stands (c.project.blocks t.target)
        (((t.updateFrame ({ · with loopCounter := some after })).stepToBranch (c.project.blocks t.target) 1
          true).switchFrom id (c.project.blocks t.target)).stack (body :: .loop id left' body next :: k) := by
      apply stands_entered counted plain
      · rwa [branch]
      · rwa [branch]
      · dsimp only
        rw [whole]
        exact .loop (.loop found loops known' counts' inner rest acyclic)
      · exact later
    have own := same.trans (Thread.same_stepToBranch (c.project.blocks t.target) 1 true _)
    refine .runs turn ((Thread.stepToBranch_status _ _ _ _).trans running) ?_ ?_ fewer
    · rw [own.target]
      exact stands
    · rw [own.serial]
      exact continues.entered leads fun known'' => by rwa [← known', known]
  have leave : after.nonnegative = false → Leads (.loop id left body next :: k) [] (next :: k) →
      (c.steady → stepsLeft (next :: k) ≤ n) → c.Outcome size bound i id n vm := by
    intro stop leads fewer
    rw [if_neg (by simp [stop])] at turn
    refine .runs turn running ?_ ?_ fewer
    · rw [same.target]
      exact stands_switched counted plain found rest later
    · rw [same.serial]
      exact continues.left leads
  cases passes : left with
  | none =>
    have unsteady : ¬ c.steady := fun steady => by simpa [passes] using (continues.calm_loop steady).1
    rw [passes] at known enter leave
    cases more : after.nonnegative with
    | true => exact enter more none ⟨some after, rfl⟩ known .enter_any fun steady => absurd steady unsteady
    | false => exact leave more .leave_any fun steady => absurd steady unsteady
  | some m =>
    have left' := passes_left frames counts passes
    rw [passes] at known enter leave few
    cases m with
    | zero =>
      have stop := Count.decrement_of_no_passes left'
      rw [counter] at stop
      refine leave stop .leave fun steady => ?_
      have enough := few steady
      rw [stepsLeft_cons, Program.steps] at enough
      rw [stepsLeft_cons]
      omega
    | succ m =>
      have next' := Count.decrement_of_passes left'
      rw [counter] at next'
      have small := Count.passes_le left'
      refine enter (by simp [next', Count.nonnegative]) (some m) ⟨by rw [next'], by omega⟩ known .enter fun steady => ?_
      have enough := few steady
      rw [stepsLeft_cons, Program.steps, Nat.succ_mul] at enough
      rw [stepsLeft_cons, stepsLeft_cons, Program.steps]
      omega

end Loops

section Silent

theorem Turn.onward {vm : Vm} (turn : c.Turn size bound i t said vm) (status : t.status = .running)
    (stack : t.stack = ⟨some id, frame⟩ :: below) (plain : frame.warpMode = false)
    (found : (c.project.blocks t.target).getBlock id = some b) (rest : next.Laid (c.project.blocks t.target) b.next)
    (later : List.Forall₂ (Awaits (c.project.blocks t.target)) below k)
    (continues : c.Continues said t.serial (next :: k)) (few : c.steady → stepsLeft (next :: k) ≤ n) :
    c.Outcome size bound i id n vm :=
  .runs turn status (stands_switched stack plain found rest later) continues few

theorem triple_inward {trap : Fault → Vm → Prop} {branchNum : Nat} {isLoop : Bool} (status : t.status = .running)
    (stack : t.stack = ⟨some id, frame⟩ :: below) (plain : frame.warpMode = false)
    (acyclic : (c.project.blocks t.target).getBranch id branchNum ≠ some id)
    (inner : body.Laid (c.project.blocks t.target) ((c.project.blocks t.target).getBranch id branchNum))
    (awaits : Awaits (c.project.blocks t.target) ⟨some id, { frame with isLoop }⟩ q)
    (later : List.Forall₂ (Awaits (c.project.blocks t.target)) below k)
    (continues : c.Continues said t.serial (body :: q :: k)) (few : c.steady → stepsLeft (body :: q :: k) ≤ n) :
    Triple (c.Turn size bound i t said) (startBranch i branchNum isLoop)
      (fun _ => c.Outcome size bound i id n) trap := by
  apply (triple_startBranch branchNum isLoop).conclude
  intro _ vm turn
  have own := Thread.same_stepToBranch (c.project.blocks t.target) branchNum isLoop t
  refine .runs turn ((Thread.stepToBranch_status _ _ _ t).trans status) ?_ ?_ few
  · rw [own.target]
    exact stands_entered stack plain acyclic inner awaits later
  · rw [own.serial]
    exact continues

theorem triple_until {trap : Fault → Vm → Prop} (status : t.status = .running)
    (stack : t.stack = ⟨some id, frame⟩ :: below) (opcode : Opcodes.opcode id = .controlRepeatUntil)
    (found : (c.project.blocks t.target).getBlock id = some b)
    (frames : frame = {} ∨ frame.Counts none) (inner : body.Laid (c.project.blocks t.target) b.substack)
    (rest : next.Laid (c.project.blocks t.target) b.next) (acyclic : b.substack ≠ some id)
    (later : List.Forall₂ (Awaits (c.project.blocks t.target)) below k)
    (continues : c.Continues said t.serial (.loop id none body next :: k)) :
    Triple (c.Turn size bound i t said) (primitive i id b) (fun _ => c.Outcome size bound i id n) trap := by
  have unsteady : ¬ c.steady := fun steady => by simpa using (continues.calm_loop steady).1
  have branch : (c.project.blocks t.target).getBranch id 1 = b.substack := by simp [Blocks.getBranch, found]
  have plain : frame.warpMode = false ∧ { frame with isLoop := true } =
      ({ isLoop := true, loopCounter := frame.loopCounter } : Frame) := by
    rcases frames with rfl | ⟨_, rfl⟩ <;> exact ⟨rfl, rfl⟩
  unfold primitive
  rw [opcode]
  apply (triple_readInput Turn.moment b _).bind
  intro value
  split
  · apply triple_inward status stack plain.1
    · rwa [branch]
    · rwa [branch]
    · rw [plain.2]
      have loops : b.times id = some none := by simp [Block.times, opcode]
      exact .loop (.loop found loops rfl ⟨_, rfl⟩ inner rest acyclic)
    · exact later
    · exact continues.entered .enter_any fun known => known
    · exact fun steady => absurd steady unsteady
  · apply Triple.pure
    intro vm turn
    exact turn.onward status stack plain.1 found rest later (continues.left .leave_any)
      fun steady => absurd steady unsteady

omit [JavaScript] in
theorem Continues.calm_choose {serial : Nat} {yes no : Program}
    (continues : c.Continues said serial (.choose id yes no next :: k)) (steady : c.steady) :
    yes.Steady ∧ no.Steady ∧ next.Steady ∧ ∀ p ∈ k, p.Steady := by
  obtain ⟨first, second, rest⟩ := continues.calm steady _ List.mem_cons_self
  exact ⟨first, second, rest, fun p member => continues.calm steady p (List.mem_cons_of_mem _ member)⟩

theorem triple_ifThen {trap : Fault → Vm → Prop} (status : t.status = .running)
    (stack : t.stack = ⟨some id, {}⟩ :: below) (opcode : Opcodes.opcode id = .controlIf)
    (found : (c.project.blocks t.target).getBlock id = some b) (acyclic : b.substack ≠ some id)
    (inner : body.Laid (c.project.blocks t.target) b.substack) (rest : next.Laid (c.project.blocks t.target) b.next)
    (later : List.Forall₂ (Awaits (c.project.blocks t.target)) below k)
    (continues : c.Continues said t.serial (.choose id body .done next :: k))
    (few : c.steady → stepsLeft (.choose id body .done next :: k) ≤ n + 1) :
    Triple (c.Turn size bound i t said) (primitive i id b) (fun _ => c.Outcome size bound i id n) trap := by
  have branch : (c.project.blocks t.target).getBranch id 1 = b.substack := by simp [Blocks.getBranch, found]
  have enough : c.steady → body.steps + next.steps + stepsLeft k ≤ n := by
    intro steady
    have all := few steady
    rw [stepsLeft_cons, Program.steps, Program.steps] at all
    omega
  unfold primitive
  rw [opcode]
  apply (triple_readInput Turn.moment b _).bind
  intro value
  split
  · apply triple_inward status stack rfl
    · rwa [branch]
    · rwa [branch]
    · exact .branch found (.inl opcode) rest
    · exact later
    · apply continues.silent .left
      intro steady
      obtain ⟨first, _, following, others⟩ := continues.calm_choose steady
      simp only [List.forall_mem_cons]
      exact ⟨first, following, others⟩
    · intro steady
      rw [stepsLeft_cons, stepsLeft_cons]
      have := enough steady
      omega
  · apply Triple.pure
    intro vm turn
    apply turn.onward status stack rfl found rest later
    · apply continues.silent (Leads.right.trans .done)
      intro steady
      obtain ⟨_, _, following, others⟩ := continues.calm_choose steady
      simp only [List.forall_mem_cons]
      exact ⟨following, others⟩
    · intro steady
      rw [stepsLeft_cons]
      have := enough steady
      omega

theorem triple_ifElse {trap : Fault → Vm → Prop} {yes no : Program} (status : t.status = .running)
    (stack : t.stack = ⟨some id, {}⟩ :: below) (opcode : Opcodes.opcode id = .controlIfElse)
    (found : (c.project.blocks t.target).getBlock id = some b) (acyclic : b.substack ≠ some id)
    (acyclic' : b.substack2 ≠ some id) (inner : yes.Laid (c.project.blocks t.target) b.substack)
    (inner' : no.Laid (c.project.blocks t.target) b.substack2) (rest : next.Laid (c.project.blocks t.target) b.next)
    (later : List.Forall₂ (Awaits (c.project.blocks t.target)) below k)
    (continues : c.Continues said t.serial (.choose id yes no next :: k))
    (few : c.steady → stepsLeft (.choose id yes no next :: k) ≤ n + 1) :
    Triple (c.Turn size bound i t said) (primitive i id b) (fun _ => c.Outcome size bound i id n) trap := by
  have branch : (c.project.blocks t.target).getBranch id 1 = b.substack := by simp [Blocks.getBranch, found]
  have branch' : (c.project.blocks t.target).getBranch id 2 = b.substack2 := by simp [Blocks.getBranch, found]
  have enough : c.steady → yes.steps + no.steps + next.steps + stepsLeft k ≤ n := by
    intro steady
    have all := few steady
    rw [stepsLeft_cons, Program.steps] at all
    omega
  have awaits : Awaits (c.project.blocks t.target) ⟨some id, { ({} : Frame) with isLoop := false }⟩ next :=
    .branch found (.inr opcode) rest
  unfold primitive
  rw [opcode]
  apply (triple_readInput Turn.moment b _).bind
  intro value
  split
  · apply triple_inward status stack rfl (by rwa [branch]) (by rwa [branch]) awaits later
    · apply continues.silent .left
      intro steady
      obtain ⟨first, _, following, others⟩ := continues.calm_choose steady
      simp only [List.forall_mem_cons]
      exact ⟨first, following, others⟩
    · intro steady
      rw [stepsLeft_cons, stepsLeft_cons]
      have := enough steady
      omega
  · apply triple_inward status stack rfl (by rwa [branch']) (by rwa [branch']) awaits later
    · apply continues.silent .right
      intro steady
      obtain ⟨_, second, following, others⟩ := continues.calm_choose steady
      simp only [List.forall_mem_cons]
      exact ⟨second, following, others⟩
    · intro steady
      rw [stepsLeft_cons, stepsLeft_cons]
      have := enough steady
      omega

end Silent

end ArRobotCode.Scratch.Course
