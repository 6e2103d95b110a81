import ArRobotCode.Scratch.Executions

namespace ArRobotCode.Scratch

open Trapping

section Messages

variable [JavaScript]

/-- The message of the flag, or of a robot block with an entry of a stack in front. -/
def Spoken (message : String) : Prop :=
  message = "00 run" ∨ ∃ (entry : Option (Option BlockId)) (block : RobotBlock) (value : JsValue) (argument : String),
    block.argument value = some argument ∧
      message = instructionMessage (printedEntry entry) block.instruction argument

namespace Vm

def Speaks (before : List String) (vm : Vm) : Prop :=
  ∃ messages, vm.posted = before ++ messages ∧ ∀ message ∈ messages, Spoken message

def KeepsSpeech {α : Type} (x : Js α) : Prop :=
  ∀ before, Triple (Speaks before) x (fun _ => Speaks before) fun _ => Speaks before

variable {α β : Type}

theorem KeepsSpeech.bind {x : Js α} {f : α → Js β} (first : KeepsSpeech x) (rest : ∀ a, KeepsSpeech (f a)) :
    KeepsSpeech (x >>= f) := fun before => Triple.bind (first before) fun a => rest a before

theorem speech_pure (a : α) : KeepsSpeech (pure a : Js α) := fun _ _ speaks => speaks

theorem speech_get : KeepsSpeech (get : Js Vm) := fun _ _ speaks => speaks

theorem speech_modify {f : Vm → Vm} (posted : ∀ vm, (f vm).posted = vm.posted) : KeepsSpeech (modify f) := by
  intro before vm speaks
  obtain ⟨messages, shape, spoken⟩ := speaks
  exact ⟨messages, (posted vm).trans shape, spoken⟩

theorem speech_throw (fault : Fault) : KeepsSpeech (throw fault : Js α) := fun _ _ speaks => speaks

theorem speech_updateThread (i : Nat) (f : Thread → Thread) : KeepsSpeech (updateThread i f) :=
  speech_modify fun _ => rfl

theorem speech_thread (i : Nat) : KeepsSpeech (thread i) := by
  apply speech_get.bind
  intro vm
  split
  · exact speech_pure _
  · exact speech_throw _

theorem speech_ask : KeepsSpeech ask := fun _ => triple_ask fun _ _ speaks => speaks

theorem speech_readInput (block : Block) (name : String) : KeepsSpeech (readInput block name) :=
  fun _ => triple_readInput (fun _ _ speaks => speaks) block name

theorem speech_blocksOf (t : Thread) : KeepsSpeech (blocksOf t) := fun _ => triple_blocksOf t

theorem speech_warpTimeIsUp (frame : Frame) : KeepsSpeech (warpTimeIsUp frame) :=
  fun _ => triple_warpTimeIsUp (fun _ _ speaks => speaks) frame

theorem speech_givesWay (frame : Frame) : KeepsSpeech (givesWay frame) :=
  fun _ => triple_givesWay (fun _ _ speaks => speaks) frame

theorem speech_postMessage {message : String} (spoken : Spoken message) : KeepsSpeech (postMessage message) := by
  intro before vm speaks
  obtain ⟨messages, shape, earlier⟩ := speaks
  refine ⟨messages ++ [message], ?_, ?_⟩
  · rw [← List.append_assoc, ← shape]
  · intro other member
    rcases List.mem_append.mp member with old | new
    · exact earlier other old
    · rw [List.mem_singleton.mp new]
      exact spoken

theorem speech_pushThread (top : BlockId) (target : Nat) (stackClick updateMonitor : Bool) :
    KeepsSpeech (pushThread top target stackClick updateMonitor) := speech_modify fun _ => rfl

theorem speech_runAll {ι : Type} {op : ι → Js Unit} (each : ∀ i, KeepsSpeech (op i)) (is : List ι) :
    KeepsSpeech (runAll op is) := fun before => Triple.runAll fun i _ => each i before

theorem speech_pushMonitors (monitored : List (BlockId × Nat)) : KeepsSpeech (pushMonitors monitored) := by
  apply speech_runAll
  intro pair
  obtain ⟨top, target⟩ := pair
  apply speech_get.bind
  intro vm
  split
  · exact speech_pure ()
  · exact speech_pushThread top target false true

theorem speech_toggleScript (top : BlockId) (target : Nat) (stackClick : Bool) :
    KeepsSpeech (toggleScript top target stackClick) := by
  apply speech_get.bind
  intro vm
  split
  · exact speech_updateThread _ _
  · exact speech_pushThread top target stackClick false

theorem speech_startBranch (i branchNum : Nat) (isLoop : Bool) : KeepsSpeech (startBranch i branchNum isLoop) := by
  apply (speech_thread i).bind
  intro t
  apply (speech_blocksOf t).bind
  intro blocks
  exact speech_updateThread i _

theorem speech_loopTimes (i : Nat) (times : Count) : KeepsSpeech (loopTimes i times) := by
  apply (speech_thread i).bind
  intro t
  apply (speech_updateThread i _).bind
  intro _
  split
  · exact speech_startBranch i 1 true
  · exact speech_pure ()

theorem speech_unwind (i depth : Nat) : KeepsSpeech (unwind i depth) := by
  induction depth with
  | zero => exact speech_throw _
  | succ depth ih =>
    apply (speech_thread i).bind
    intro t
    split
    · exact speech_pure _
    · apply (speech_updateThread i _).bind
      intro _
      apply (speech_thread i).bind
      intro t'
      split
      · exact (speech_updateThread i _).bind fun _ => speech_pure _
      · split
        · apply (speech_givesWay _).bind
          intro gives
          split
          · exact speech_pure _
          · exact ih
        · apply (speech_blocksOf t').bind
          intro blocks
          exact (speech_updateThread i _).bind fun _ => ih

theorem speech_instruct (i : Nat) (id : BlockId) (block : RobotBlock) (value : JsValue) :
    KeepsSpeech (instruct i id block value) := by
  apply speech_get.bind
  intro vm
  split
  · exact speech_throw _
  · rename_i first _ _
    cases message : block.message (printedEntry (block.entry first)) value with
    | none => exact speech_throw _
    | some message' =>
      rw [RobotBlock.message_eq] at message
      obtain ⟨argument, reads, same⟩ := Option.map_eq_some_iff.mp message
      apply (speech_postMessage (.inr ⟨_, block, value, argument, reads, same.symm⟩)).bind
      intro _
      apply KeepsSpeech.bind
      · exact speech_modify fun _ => rfl
      intro _
      split
      · apply speech_ask.bind
        intro answer
        exact speech_modify fun _ => rfl
      · exact speech_pure ()

end Vm

end Messages

section Machine

variable [JavaScript] [Opcodes]

namespace Vm

theorem speech_startHat (top : BlockId) (target : Nat) : KeepsSpeech (startHat top target) := by
  apply speech_get.bind
  intro vm
  split
  · exact speech_throw _
  · split
    · exact speech_pure ()
    · apply (speech_postMessage (.inl rfl)).bind
      intro _
      apply speech_get.bind
      intro vm
      split
      · exact speech_modify fun _ => rfl
      · exact speech_pushThread top target false false

theorem speech_greenFlag : KeepsSpeech greenFlag := by
  apply KeepsSpeech.bind
  · exact speech_modify fun _ => rfl
  intro _
  apply speech_get.bind
  intro vm
  apply speech_runAll
  intro pair
  exact speech_startHat pair.1 pair.2

theorem speech_stepToProcedure (i : Nat) (proccode : String) : KeepsSpeech (stepToProcedure i proccode) := by
  apply (speech_thread i).bind
  intro t
  apply (speech_blocksOf t).bind
  intro blocks
  split
  · exact speech_pure ()
  · split
    · exact speech_throw _
    · apply (speech_updateThread i _).bind
      intro _
      apply (speech_warpTimeIsUp _).bind
      intro up
      split
      · exact speech_updateThread i _
      · split
        · exact speech_updateThread i _
        · split
          · exact speech_updateThread i _
          · exact speech_pure ()

theorem speech_call (i : Nat) (proccode : String) : KeepsSpeech (call i proccode) := by
  apply (speech_thread i).bind
  intro t
  apply (speech_blocksOf t).bind
  intro blocks
  split
  · exact speech_pure ()
  · apply (speech_updateThread i _).bind
    intro _
    exact speech_stepToProcedure i proccode

theorem speech_primitive (i : Nat) (id : BlockId) (block : Block) : KeepsSpeech (primitive i id block) := by
  unfold primitive
  split
  case h_1 | h_2 | h_3 => exact speech_pure ()
  case h_4 robot _ => exact (speech_readInput block robot.input).bind fun value => speech_instruct i id robot value
  case h_5 => exact (speech_readInput block "TIMES").bind fun value => speech_loopTimes i _
  case h_6 => exact speech_loopTimes i _
  case h_7 =>
    apply (speech_readInput block "CONDITION").bind
    intro value
    split
    · exact speech_startBranch i 1 true
    · exact speech_pure ()
  case h_8 =>
    apply (speech_updateThread i _).bind
    intro _
    apply (speech_thread i).bind
    intro t
    exact speech_modify fun _ => rfl
  case h_9 =>
    apply (speech_readInput block "CONDITION").bind
    intro value
    split
    · exact speech_updateThread i _
    · exact speech_pure ()
  case h_10 =>
    apply (speech_readInput block "CONDITION").bind
    intro value
    split
    · exact speech_startBranch i 1 false
    · exact speech_pure ()
  case h_11 =>
    apply (speech_readInput block "CONDITION").bind
    intro value
    split
    · exact speech_startBranch i 1 false
    · exact speech_startBranch i 2 false
  case h_12 =>
    apply (speech_thread i).bind
    intro t
    split
    · exact speech_modify fun _ => rfl
    · exact speech_modify fun _ => rfl
    · exact (speech_blocksOf t).bind fun blocks => speech_updateThread i _
  case h_13 =>
    split
    · exact speech_throw _
    · exact speech_call i _

theorem speech_execute (i : Nat) : KeepsSpeech (execute i) := by
  apply (speech_thread i).bind
  intro t
  split
  · exact speech_pure ()
  · apply speech_get.bind
    intro vm
    split
    · exact speech_updateThread i _
    · exact speech_primitive i _ _

theorem speech_executeBlocks (i fuel : Nat) : KeepsSpeech (executeBlocks i fuel) := by
  induction fuel with
  | zero => exact speech_throw _
  | succ fuel ih =>
    apply (speech_thread i).bind
    intro t
    split
    · exact speech_pure ()
    · apply (speech_execute i).bind
      intro _
      apply (speech_thread i).bind
      intro after
      split
      · apply (speech_updateThread i _).bind
        intro _
        apply (speech_givesWay _).bind
        intro gives
        split
        · exact speech_pure ()
        · exact ih
      · exact speech_pure ()
      all_goals
        apply (speech_blocksOf after).bind
        intro blocks
        apply (speech_updateThread i _).bind
        intro _
        apply (speech_unwind i _).bind
        intro goesOn
        split
        · exact ih
        · exact speech_pure ()

theorem speech_visit (fuel i : Nat) : KeepsSpeech (visit fuel i) := by
  apply (speech_thread i).bind
  intro t
  split
  · exact speech_pure _
  · apply KeepsSpeech.bind
    · unfold stepReady
      split
      · exact (speech_updateThread i _).bind fun _ => speech_executeBlocks i fuel
      · exact speech_pure ()
    · intro _
      exact (speech_thread i).bind fun after => speech_pure _

theorem speech_visitFrom (fuel i n : Nat) : KeepsSpeech (visitFrom fuel i n) := by
  induction n generalizing i with
  | zero => exact speech_pure _
  | succ n ih =>
    apply (speech_visit fuel i).bind
    intro here
    exact (ih (i + 1)).bind fun others => speech_pure _

theorem speech_stepThreads (fuel budget : Nat) (numActiveThreads : Bool) :
    KeepsSpeech (stepThreads fuel numActiveThreads budget) := by
  induction budget generalizing numActiveThreads with
  | zero => exact speech_pure ()
  | succ budget ih =>
    apply speech_get.bind
    intro vm
    split
    · apply (speech_visitFrom fuel 0 _).bind
      intro visited
      apply KeepsSpeech.bind
      · apply speech_modify
        intro vm
        unfold removeStopped
        split <;> rfl
      · intro _
        exact ih _
    · exact speech_pure ()

theorem speech_tick (fuel budget : Nat) : KeepsSpeech (tick fuel budget) := by
  apply KeepsSpeech.bind
  · exact speech_modify fun _ => rfl
  intro _
  apply speech_get.bind
  intro vm
  exact (speech_pushMonitors _).bind fun _ => speech_stepThreads fuel budget true

theorem speech_perform (event : Event) : KeepsSpeech (perform event) := by
  cases event with
  | greenFlag => exact speech_greenFlag
  | stopAll => exact speech_modify fun _ => rfl
  | toggleScript top target stackClick => exact speech_toggleScript top target stackClick
  | stopForTarget target => exact speech_modify fun _ => rfl
  | tick fuel budget => exact speech_tick fuel budget
  | promiseResolved serial =>
    apply speech_modify
    intro vm
    split <;> rfl
  | edit project => exact speech_modify fun _ => rfl
  | setTurboMode turboMode => exact speech_modify fun _ => rfl

/-- Whatever the VM goes through, it posts messages of these forms only, and takes none back. -/
theorem speaks_perform (event : Event) (vm : Vm) : (final (perform event) vm).Speaks vm.posted := by
  have outcome := speech_perform event vm.posted vm ⟨[], (List.append_nil _).symm, by simp⟩
  unfold final
  cases ran : (perform event).run vm with
  | ok _ vm' =>
    rw [ran] at outcome
    exact outcome
  | error e vm' =>
    rw [ran] at outcome
    exact outcome

theorem speaks_after (events : List Event) (vm : Vm) : (vm.after events).Speaks vm.posted := by
  induction events generalizing vm with
  | nil => exact ⟨[], (List.append_nil _).symm, by simp⟩
  | cons event events ih =>
    obtain ⟨messages, shape, spoken⟩ := speaks_perform event vm
    obtain ⟨later, shape', spoken'⟩ := ih (final (perform event) vm)
    refine ⟨messages ++ later, ?_, ?_⟩
    · rw [after, shape', shape, List.append_assoc]
    · intro message member
      rcases List.mem_append.mp member with first | second
      · exact spoken message first
      · exact spoken' message second

theorem after_append (vm : Vm) (first second : List Event) :
    vm.after (first ++ second) = (vm.after first).after second := by
  induction first generalizing vm with
  | nil => rfl
  | cons event first ih => exact ih (final (perform event) vm)

theorem after_of_run_ok {events : List Event} {vm vm' : Vm} (ran : (runAll perform events).run vm = .ok () vm') :
    vm.after events = vm' := by
  induction events generalizing vm with
  | nil =>
    cases ran
    rfl
  | cons event events ih =>
    obtain ⟨middle, first, rest⟩ := runAll_cons_ok.mp ran
    rw [after, final_of_run_ok first]
    exact ih rest

end Vm

end Machine

end ArRobotCode.Scratch
