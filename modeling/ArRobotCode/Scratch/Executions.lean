import ArRobotCode.Scratch.Vm

namespace ArRobotCode.Scratch

open Trapping

theorem mem_tail_of_suffix {xs ys : List Level} {level : Level} (suffix : xs <:+ ys) (member : level ∈ xs.tail) :
    level ∈ ys.tail := by
  obtain ⟨dropped, rfl⟩ := suffix
  cases dropped with
  | nil => exact member
  | cons head dropped => exact List.mem_append_right _ (List.mem_of_mem_tail member)

section Stacks

variable [Opcodes]

def Level.Plain (level : Level) : Prop :=
  ∀ id robot, level.block = some id → Opcodes.opcode id ≠ .robot robot

namespace Thread

def Nested (t : Thread) : Prop := ∀ level ∈ t.stack.tail, level.Plain

def TopPlain (t : Thread) : Prop := ∀ level ∈ t.stack.head?, level.Plain

variable {t : Thread} {blocks : Blocks}

theorem topPlain_of_opcode {id : BlockId} (top : t.peekStack = some id)
    (plain : ∀ robot, Opcodes.opcode id ≠ .robot robot) : t.TopPlain := by
  intro level member other robot same
  unfold peekStack at top
  cases stack : t.stack with
  | nil => simp [stack] at member
  | cons head rest =>
    simp only [stack, List.head?_cons, Option.mem_some_iff] at member top
    rw [member, same] at top
    cases top
    exact plain robot

theorem topPlain_updateFrame (f : Frame → Frame) (plain : t.TopPlain) : (t.updateFrame f).TopPlain := by
  unfold TopPlain updateFrame at *
  cases stack : t.stack with
  | nil => simp [stack]
  | cons head rest => simpa [stack, Level.Plain] using plain

theorem Nested.updateFrame (f : Frame → Frame) (nested : t.Nested) : (t.updateFrame f).Nested := by
  unfold Nested Thread.updateFrame at *
  cases stack : t.stack with
  | nil => simp [stack]
  | cons head rest => simpa [stack] using nested

theorem Nested.pushStack (id : Option BlockId) (nested : t.Nested) (plain : t.TopPlain) : (t.pushStack id).Nested := by
  intro level member
  simp only [Thread.pushStack, List.tail_cons] at member
  cases stack : t.stack with
  | nil => simp [stack] at member
  | cons head rest =>
    rw [stack] at member
    rcases List.mem_cons.mp member with same | below
    · rw [same]
      exact plain head (by simp [stack])
    · exact nested level (by simpa [stack] using below)

theorem Nested.popStack (nested : t.Nested) : t.popStack.Nested :=
  fun level member => nested level (List.mem_of_mem_tail member)

theorem Nested.reuseStackForNextBlock (id : Option BlockId) (nested : t.Nested) :
    (t.reuseStackForNextBlock id).Nested := by
  unfold Nested Thread.reuseStackForNextBlock at *
  cases stack : t.stack with
  | nil => simp [stack]
  | cons head rest => simpa [stack] using nested

theorem Nested.goToNextBlock (blocks : Blocks) (nested : t.Nested) : (t.goToNextBlock blocks).Nested :=
  nested.reuseStackForNextBlock _

theorem Nested.stepToBranch (blocks : Blocks) (branchNum : Nat) (isLoop : Bool) (nested : t.Nested)
    (plain : t.TopPlain) : (t.stepToBranch blocks branchNum isLoop).Nested :=
  (nested.updateFrame _).pushStack _ (topPlain_updateFrame _ plain)

theorem Nested.switchFrom (id : BlockId) (blocks : Blocks) (nested : t.Nested) : (t.switchFrom id blocks).Nested := by
  unfold Thread.switchFrom
  split
  · exact nested.goToNextBlock blocks
  · exact nested

theorem Nested.popNull (nested : t.Nested) : t.popNull.Nested := by
  unfold Thread.popNull
  split
  · exact nested.popStack
  · exact nested

theorem Nested.setStatus (status : Status) (nested : t.Nested) : (t.setStatus status).Nested := nested

theorem Nested.waitForPromise (nested : t.Nested) : t.waitForPromise.Nested := by
  unfold Thread.waitForPromise
  split <;> exact nested

theorem nested_retire (t : Thread) : t.retire.Nested := by
  simp [Nested, retire]

theorem nested_stop (t : Thread) : t.stop.Nested := t.nested_retire

theorem stopThisScript_suffix (blocks : Blocks) (t : Thread) : (t.stopThisScript blocks).stack <:+ t.stack := by
  unfold stopThisScript
  dsimp only
  split <;> exact List.dropWhile_suffix _

theorem Nested.stopThisScript (blocks : Blocks) (nested : t.Nested) : (t.stopThisScript blocks).Nested :=
  fun level member => nested level (mem_tail_of_suffix (stopThisScript_suffix blocks t) member)

theorem afterPromise_plain (stack : List Level) (plain : ∀ level ∈ stack.tail, level.Plain) :
    ∀ level ∈ (afterPromise blocks stack).tail, level.Plain := by
  fun_induction afterPromise blocks stack with
  | case1 => simp
  | case2 popped rest => exact fun level member => plain level (List.mem_of_mem_tail member)
  | case3 popped rest => exact plain
  | case4 popped => simp
  | case5 popped id _ _ parent rest => exact plain
  | case6 popped id _ _ parent rest _ ih => exact ih fun level member => plain level (List.mem_of_mem_tail member)

theorem Nested.promiseResolved (blocks : Blocks) (nested : t.Nested) : (t.promiseResolved blocks).Nested :=
  afterPromise_plain t.stack nested

end Thread

end Stacks

section Steady

namespace Vm

variable {pre : Vm → Prop} {trap : Fault → Vm → Prop}

theorem triple_ask (steady : ∀ vm moment, pre vm → pre { vm with moment }) :
    Triple pre ask (fun _ => pre) trap := fun vm start => steady vm _ start

theorem triple_readInput (steady : ∀ vm moment, pre vm → pre { vm with moment }) (block : Block) (name : String) :
    Triple pre (readInput block name) (fun _ => pre) trap := by
  unfold readInput
  cases block.input name with
  | none => exact Triple.pure fun _ start => start
  | some input =>
    cases input with
    | value value => exact Triple.pure fun _ start => start
    | reporter => exact (triple_ask steady).bind fun _ => Triple.pure fun _ start => start

theorem triple_blocksOf (t : Thread) : Triple pre (blocksOf t) (fun _ => pre) trap := fun _ start => start

theorem triple_warpTimeIsUp (steady : ∀ vm moment, pre vm → pre { vm with moment }) (frame : Frame) :
    Triple pre (warpTimeIsUp frame) (fun _ => pre) trap := by
  unfold warpTimeIsUp
  split
  · exact (triple_ask steady).bind fun _ => Triple.pure fun _ start => start
  · exact Triple.pure fun _ start => start

theorem triple_givesWay (steady : ∀ vm moment, pre vm → pre { vm with moment }) (frame : Frame) :
    Triple pre (givesWay frame) (fun _ => pre) trap := by
  unfold givesWay
  split
  · exact (triple_ask steady).bind fun _ => Triple.pure fun _ start => start
  · exact Triple.pure fun _ start => start

theorem mem_modify {i : Nat} {f : Thread → Thread} {threads : List Thread} {u : Thread}
    (member : u ∈ threads.modify i f) :
    u ∈ threads ∨ ∃ t, threads[i]? = some t ∧ u = f t := by
  obtain ⟨j, found⟩ := List.getElem?_of_mem member
  rw [List.getElem?_modify] at found
  cases original : threads[j]? with
  | none => simp [original] at found
  | some t =>
    simp only [original, Option.map_eq_map, Option.map_some, Option.some.injEq] at found
    by_cases same : i = j
    · rw [if_pos same] at found
      rw [same]
      exact .inr ⟨t, original, found.symm⟩
    · rw [if_neg same] at found
      rw [← found]
      exact .inl (List.mem_of_getElem? original)

end Vm

end Steady

section Machine

variable [Opcodes] [JavaScript]

/-- What holds of the VM at the moment of an execution, and of the message. -/
structure Execution.Recorded (x : Execution) : Prop where
  executing : ∃ t, x.threads[x.index]? = some t ∧ t.peekStack = some x.id
  opcode : Opcodes.opcode x.id = .robot x.block
  nested : ∀ t ∈ x.threads, t.Nested
  message : ∃ first rest value, x.threads = first :: rest ∧
    x.block.message (printedEntry (x.block.entry first)) value = some x.message

namespace Vm

def Sound (vm : Vm) : Prop := (∀ t ∈ vm.threads, t.Nested) ∧ ∀ x ∈ vm.executions, x.Recorded

def At (i : Nat) (t : Thread) (vm : Vm) : Prop := vm.Sound ∧ vm.threads[i]? = some t

def Keeps {α : Type} (x : Js α) : Prop := Triple Sound x (fun _ => Sound) fun _ => Sound

variable {α β : Type} {i : Nat} {t : Thread}

theorem Keeps.bind {x : Js α} {f : α → Js β} (first : Keeps x) (rest : ∀ a, Keeps (f a)) : Keeps (x >>= f) :=
  Triple.bind first rest

theorem keeps_pure (a : α) : Keeps (pure a : Js α) := Triple.pure fun _ sound => sound

theorem keeps_get : Keeps (get : Js Vm) := fun _ sound => sound

theorem At.sound {vm : Vm} (stands : vm.At i t) : vm.Sound := stands.1

theorem At.nested {vm : Vm} (stands : vm.At i t) : t.Nested :=
  stands.1.1 t (List.mem_of_getElem? stands.2)

theorem at_thread : Triple Sound (thread i) (fun t => At i t) fun _ => Sound := by
  intro vm sound
  unfold thread
  rw [EStateM.run_bind, EStateM.run_get]
  dsimp only
  cases found : vm.threads[i]? with
  | none => exact sound
  | some t => exact ⟨sound, found⟩

theorem triple_thread {f : Thread → Js β} {post : β → Vm → Prop}
    (rest : Triple (At i t) (f t) post fun _ => Sound) : Triple (At i t) (thread i >>= f) post fun _ => Sound := by
  intro vm stands
  have read : (thread i).run vm = .ok t vm := by
    unfold thread
    rw [EStateM.run_bind, EStateM.run_get]
    dsimp only
    rw [stands.2]
    rfl
  rw [EStateM.run_bind, read]
  exact rest vm stands

theorem keeps_thread {f : Thread → Js β} (rest : ∀ t, Triple (At i t) (f t) (fun _ => Sound) fun _ => Sound) :
    Keeps (thread i >>= f) := at_thread.bind rest

theorem keeps_ask : Keeps ask := triple_ask fun _ _ sound => sound

theorem keeps_warpTimeIsUp (frame : Frame) : Keeps (warpTimeIsUp frame) :=
  triple_warpTimeIsUp (fun _ _ sound => sound) frame

theorem keeps_givesWay (frame : Frame) : Keeps (givesWay frame) := triple_givesWay (fun _ _ sound => sound) frame

theorem triple_updateThread {f : Thread → Thread} (nested : t.Nested → (f t).Nested) :
    Triple (At i t) (updateThread i f) (fun _ => At i (f t)) fun _ => Sound := by
  intro vm stands
  refine ⟨⟨fun u member => ?_, stands.1.2⟩, ?_⟩
  · rcases mem_modify member with old | ⟨t', found, same⟩
    · exact stands.1.1 u old
    · rw [stands.2] at found
      cases found
      rw [same]
      exact nested stands.nested
  · simp [stands.2]

theorem keeps_updateThread {f : Thread → Thread} (nested : ∀ t, t.Nested → (f t).Nested) :
    Keeps (updateThread i f) := by
  intro vm sound
  refine ⟨fun u member => ?_, sound.2⟩
  rcases mem_modify member with old | ⟨t, found, same⟩
  · exact sound.1 u old
  · rw [same]
    exact nested t (sound.1 t (List.mem_of_getElem? found))

theorem keeps_modify {f : Vm → Vm} (nested : ∀ vm, vm.Sound → ∀ u ∈ (f vm).threads, u.Nested)
    (executions : ∀ vm, (f vm).executions = vm.executions) : Keeps (modify f) := by
  intro vm sound
  refine ⟨nested vm sound, ?_⟩
  show ∀ x ∈ (f vm).executions, x.Recorded
  rw [executions]
  exact sound.2

theorem keeps_postMessage (message : String) : Keeps (postMessage message) := fun _ sound => sound

theorem keeps_pushThread (top : BlockId) (target : Nat) (stackClick updateMonitor : Bool) :
    Keeps (pushThread top target stackClick updateMonitor) := by
  apply keeps_modify
  · intro vm sound u member
    rcases List.mem_append.mp member with old | new
    · exact sound.1 u old
    · rw [List.mem_singleton.mp new]
      simp [Thread.Nested, Thread.create]
  · exact fun _ => rfl

theorem keeps_restartThread (i : Nat) : Keeps (restartThread i) := by
  apply keeps_modify
  · intro vm sound u member
    rcases mem_modify member with old | ⟨t, _, same⟩
    · exact sound.1 u old
    · rw [same]
      simp [Thread.Nested, Thread.create]
  · exact fun _ => rfl

theorem keeps_stopAll : Keeps stopAll := by
  apply keeps_modify
  · intro vm sound u member
    obtain ⟨t, _, same⟩ := List.mem_map.mp member
    rw [← same]
    exact t.nested_stop
  · exact fun _ => rfl

theorem keeps_stopForTarget (target : Nat) (exception : Option Nat) : Keeps (stopForTarget target exception) := by
  apply keeps_modify
  · intro vm sound u member
    obtain ⟨i, bound, same⟩ := List.mem_mapIdx.mp member
    rw [← same]
    split
    · exact Thread.nested_stop _
    · exact sound.1 _ (List.getElem_mem bound)
  · exact fun _ => rfl

theorem keeps_toggleScript (top : BlockId) (target : Nat) (stackClick : Bool) :
    Keeps (toggleScript top target stackClick) := by
  apply keeps_get.bind
  intro vm
  split
  · exact keeps_updateThread fun t _ => t.nested_stop
  · exact keeps_pushThread _ _ _ _

theorem keeps_pushMonitors (monitored : List (BlockId × Nat)) : Keeps (pushMonitors monitored) := by
  apply Triple.runAll
  intro monitor _
  unfold addMonitorScript
  apply keeps_get.bind
  intro vm
  split
  · exact keeps_pure ()
  · exact keeps_pushThread _ _ _ _

theorem keeps_startHat (top : BlockId) (target : Nat) : Keeps (startHat top target) := by
  unfold startHat
  apply keeps_get.bind
  intro vm
  split
  · exact Triple.throw fun _ sound => sound
  · split
    · exact keeps_pure ()
    · apply (keeps_postMessage _).bind
      intro _
      apply keeps_get.bind
      intro vm
      split
      · exact keeps_restartThread _
      · exact keeps_pushThread _ _ _ _

theorem keeps_greenFlag : Keeps greenFlag := by
  apply keeps_stopAll.bind
  intro _
  apply keeps_get.bind
  intro vm
  exact Triple.runAll fun script _ => keeps_startHat script.1 script.2

theorem At.steady (vm : Vm) (moment : Nat) (stands : vm.At i t) : Vm.At i t { vm with moment } := stands

theorem triple_sound {x : Js α} (keeps : Keeps x) : Triple (At i t) x (fun _ => Sound) fun _ => Sound :=
  keeps.strengthen fun _ stands => stands.sound

theorem triple_update {f : Thread → Thread} (nested : t.Nested → (f t).Nested) :
    Triple (At i t) (updateThread i f) (fun _ => Sound) fun _ => Sound :=
  fun vm stands => (triple_updateThread nested vm stands).1

theorem triple_startBranch (branchNum : Nat) (isLoop : Bool) (plain : t.TopPlain) :
    Triple (At i t) (startBranch i branchNum isLoop) (fun _ => Sound) fun _ => Sound := by
  apply triple_thread
  apply (triple_blocksOf t).bind
  intro blocks
  exact triple_update fun nested => nested.stepToBranch blocks branchNum isLoop plain

theorem triple_loopTimes (times : Count) (plain : t.TopPlain) :
    Triple (At i t) (loopTimes i times) (fun _ => Sound) fun _ => Sound := by
  apply triple_thread
  apply (triple_updateThread fun nested => nested.updateFrame _).bind
  intro _
  split
  · exact triple_startBranch 1 true (Thread.topPlain_updateFrame _ plain)
  · exact Triple.pure fun _ stands => stands.sound

theorem triple_stepToProcedure (proccode : String) (plain : t.TopPlain) :
    Triple (At i t) (stepToProcedure i proccode) (fun _ => Sound) fun _ => Sound := by
  apply triple_thread
  apply (triple_blocksOf t).bind
  intro blocks
  split
  · exact Triple.pure fun _ stands => stands.sound
  · split
    · exact Triple.throw fun _ stands => stands.sound
    · apply (triple_updateThread fun nested => nested.pushStack _ plain).bind
      intro _
      apply triple_sound
      apply (keeps_warpTimeIsUp _).bind
      intro isUp
      split
      · exact keeps_updateThread fun _ nested => nested.setStatus _
      · split
        · exact keeps_updateThread fun _ nested => nested.updateFrame _
        · split
          · exact keeps_updateThread fun _ nested => nested.setStatus _
          · exact keeps_pure ()

theorem triple_call (proccode : String) (plain : t.TopPlain) :
    Triple (At i t) (call i proccode) (fun _ => Sound) fun _ => Sound := by
  apply triple_thread
  apply (triple_blocksOf t).bind
  intro blocks
  split
  · exact Triple.pure fun _ stands => stands.sound
  · apply (triple_updateThread fun nested => nested.updateFrame _).bind
    intro _
    exact triple_stepToProcedure proccode (Thread.topPlain_updateFrame _ plain)

theorem triple_instruct {id : BlockId} {block : RobotBlock} (top : t.peekStack = some id)
    (opcode : Opcodes.opcode id = .robot block) (value : JsValue) :
    Triple (At i t) (instruct i id block value) (fun _ => Sound) fun _ => Sound := by
  apply Triple.get.bind
  intro vm
  split
  · exact Triple.throw fun _ read => read.2.sound
  · rename_i first rest threads
    split
    · exact Triple.throw fun _ read => read.2.sound
    · rename_i message posts
      have recorded : vm.At i t → Execution.Recorded ⟨vm.threads, i, id, block, message⟩ := fun stands =>
        ⟨⟨t, stands.2, top⟩, opcode, stands.1.1, first, rest, value, threads, posts⟩
      apply @Triple.bind _ _ _ _ _ _ _ (fun _ s => vm.At i t ∧ s.Sound)
      · rintro s ⟨rfl, stands⟩
        exact ⟨stands, stands.sound⟩
      · intro _
        apply @Triple.bind _ _ _ _ _ _ _ (fun _ => Sound)
        · apply Triple.modify
          intro s both
          refine ⟨both.2.1, fun x member => ?_⟩
          rcases List.mem_append.mp member with old | new
          · exact both.2.2 x old
          · rw [List.mem_singleton.mp new]
            exact recorded both.1
        · intro _
          show Keeps _
          split
          · apply keeps_ask.bind
            intro answer
            exact keeps_modify (fun _ sound => sound.1) fun _ => rfl
          · exact keeps_pure ()

theorem triple_branch (condition : Bool) (branchNum : Nat) (isLoop : Bool) (plain : t.TopPlain) :
    Triple (At i t) (if condition then startBranch i branchNum isLoop else pure ()) (fun _ => Sound)
      fun _ => Sound := by
  split
  · exact triple_startBranch branchNum isLoop plain
  · exact Triple.pure fun _ stands => stands.sound

theorem triple_primitive {id : BlockId} (top : t.peekStack = some id) (block : Block) :
    Triple (At i t) (primitive i id block) (fun _ => Sound) fun _ => Sound := by
  have plain : (∀ robot, Opcodes.opcode id ≠ .robot robot) → t.TopPlain := Thread.topPlain_of_opcode top
  unfold primitive
  cases opcode : Opcodes.opcode id with
  | eventWhenflagclicked | proceduresDefinition | other => exact Triple.pure fun _ stands => stands.sound
  | robot robot =>
    apply (triple_readInput At.steady block _).bind
    intro value
    exact triple_instruct top opcode value
  | controlRepeat =>
    apply (triple_readInput At.steady block _).bind
    intro value
    exact triple_loopTimes _ (plain (by simp [opcode]))
  | controlForever => exact triple_loopTimes _ (plain (by simp [opcode]))
  | controlRepeatUntil =>
    apply (triple_readInput At.steady block _).bind
    intro value
    exact triple_branch _ 1 true (plain (by simp [opcode]))
  | controlWait =>
    apply triple_sound
    apply (keeps_updateThread fun _ nested => nested.waitForPromise).bind
    intro _
    apply keeps_thread
    intro t'
    apply triple_sound
    exact keeps_modify (fun _ sound => sound.1) fun _ => rfl
  | controlWaitUntil =>
    apply (triple_readInput At.steady block _).bind
    intro value
    apply triple_sound
    split
    · exact keeps_updateThread fun _ nested => nested.setStatus _
    · exact keeps_pure ()
  | controlIf =>
    apply (triple_readInput At.steady block _).bind
    intro value
    exact triple_branch _ 1 false (plain (by simp [opcode]))
  | controlIfElse =>
    apply (triple_readInput At.steady block _).bind
    intro value
    split
    · exact triple_startBranch 1 false (plain (by simp [opcode]))
    · exact triple_startBranch 2 false (plain (by simp [opcode]))
  | controlStop =>
    apply triple_thread
    apply triple_sound
    split
    · exact keeps_stopAll
    · exact keeps_stopForTarget _ _
    · apply Keeps.bind (triple_blocksOf t)
      intro blocks
      exact keeps_updateThread fun _ nested => nested.stopThisScript blocks
  | proceduresCall =>
    dsimp only
    split
    · exact Triple.throw fun _ stands => stands.sound
    · exact triple_call _ (plain (by simp [opcode]))

theorem keeps_execute (i : Nat) : Keeps (execute i) := by
  apply keeps_thread
  intro t
  split
  · exact Triple.pure fun _ stands => stands.sound
  · rename_i id top
    apply Triple.get.bind
    intro vm
    split
    · apply (triple_update fun _ => t.nested_retire).strengthen
      exact fun _ read => read.2
    · apply (triple_primitive top _).strengthen
      exact fun _ read => read.2

theorem keeps_unwind (i depth : Nat) : Keeps (unwind i depth) := by
  induction depth with
  | zero => exact Triple.throw fun _ sound => sound
  | succ depth ih =>
    apply keeps_thread
    intro t
    apply triple_sound
    split
    · exact keeps_pure _
    · apply (keeps_updateThread fun _ nested => nested.popStack).bind
      intro _
      apply keeps_thread
      intro t'
      apply triple_sound
      split
      · apply (keeps_updateThread fun _ nested => nested.setStatus _).bind
        intro _
        exact keeps_pure _
      · rename_i level rest _
        split
        · apply (keeps_givesWay level.frame).bind
          intro gives
          split
          · exact keeps_pure _
          · exact ih
        · apply Keeps.bind (triple_blocksOf t')
          intro blocks
          apply (keeps_updateThread fun _ nested => nested.goToNextBlock blocks).bind
          intro _
          exact ih

theorem keeps_executeBlocks (i fuel : Nat) : Keeps (executeBlocks i fuel) := by
  induction fuel with
  | zero => exact Triple.throw fun _ sound => sound
  | succ fuel ih =>
    apply keeps_thread
    intro t
    apply triple_sound
    split
    · exact keeps_pure ()
    · apply (keeps_execute i).bind
      intro _
      apply keeps_thread
      intro after
      apply triple_sound
      split
      · apply (keeps_updateThread fun _ nested => nested.setStatus _).bind
        intro _
        apply (keeps_givesWay _).bind
        intro gives
        split
        · exact keeps_pure ()
        · exact ih
      · exact keeps_pure ()
      all_goals
        apply Keeps.bind (triple_blocksOf after)
        intro blocks
        apply (keeps_updateThread fun _ nested => nested.switchFrom _ blocks).bind
        intro _
        apply (keeps_unwind i _).bind
        intro goesOn
        split
        · exact ih
        · exact keeps_pure ()

theorem keeps_visit (fuel i : Nat) : Keeps (visit fuel i) := by
  apply keeps_thread
  intro t
  apply triple_sound
  split
  · exact keeps_pure _
  · apply Keeps.bind
    · unfold stepReady
      split
      · apply (keeps_updateThread fun _ nested => nested.popNull).bind
        intro _
        exact keeps_executeBlocks i fuel
      · exact keeps_pure ()
    · intro _
      apply keeps_thread
      intro after
      exact triple_sound (keeps_pure _)

theorem keeps_visitFrom (fuel i n : Nat) : Keeps (visitFrom fuel i n) := by
  induction n generalizing i with
  | zero => exact keeps_pure _
  | succ n ih =>
    apply (keeps_visit fuel i).bind
    intro here
    apply (ih (i + 1)).bind
    intro others
    exact keeps_pure _

theorem keeps_stepThreads (fuel budget : Nat) (numActiveThreads : Bool) :
    Keeps (stepThreads fuel numActiveThreads budget) := by
  induction budget generalizing numActiveThreads with
  | zero => exact keeps_pure ()
  | succ budget ih =>
    apply keeps_get.bind
    intro vm
    split
    · apply (keeps_visitFrom fuel 0 _).bind
      intro visited
      apply Keeps.bind
      · apply keeps_modify
        · intro vm sound t member
          unfold removeStopped at member
          split at member
          · exact sound.1 t (List.mem_of_mem_filter member)
          · exact sound.1 t member
        · intro vm
          unfold removeStopped
          split <;> rfl
      · intro _
        exact ih _
    · exact keeps_pure ()

theorem keeps_tick (fuel budget : Nat) : Keeps (tick fuel budget) := by
  apply Keeps.bind
  · apply keeps_modify
    · exact fun vm sound t member => sound.1 t (List.mem_of_mem_filter member)
    · exact fun _ => rfl
  · intro _
    apply keeps_get.bind
    intro vm
    apply (keeps_pushMonitors _).bind
    intro _
    exact keeps_stepThreads fuel budget true

theorem keeps_promiseResolved (serial : Nat) : Keeps (promiseResolved serial) := by
  apply keeps_modify
  · intro vm sound t member
    split at member
    · obtain ⟨u, old, same⟩ := List.mem_map.mp member
      rw [← same]
      split
      · exact (sound.1 u old).promiseResolved _
      · exact sound.1 u old
    · exact sound.1 t member
  · intro vm
    split <;> rfl

theorem keeps_perform (event : Event) : Keeps (perform event) := by
  cases event with
  | greenFlag => exact keeps_greenFlag
  | stopAll => exact keeps_stopAll
  | toggleScript top target stackClick => exact keeps_toggleScript top target stackClick
  | stopForTarget target => exact keeps_stopForTarget target none
  | tick fuel budget => exact keeps_tick fuel budget
  | promiseResolved serial => exact keeps_promiseResolved serial
  | edit project => exact keeps_modify (fun _ sound => sound.1) fun _ => rfl
  | setTurboMode turboMode => exact keeps_modify (fun _ sound => sound.1) fun _ => rfl

theorem sound_after {vm : Vm} (sound : vm.Sound) (events : List Event) : (vm.after events).Sound := by
  induction events generalizing vm with
  | nil => exact sound
  | cons event events ih =>
    apply ih
    have outcome := keeps_perform event vm sound
    unfold final
    cases ran : (perform event).run vm with
    | ok _ vm' =>
      rw [ran] at outcome
      exact outcome
    | error e vm' =>
      rw [ran] at outcome
      exact outcome

end Vm

end Machine

end ArRobotCode.Scratch
