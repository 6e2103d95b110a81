import ArRobotCode.Scratch.Course

namespace ArRobotCode.Scratch.Course

open Structured Trapping Vm

section Reads

variable {c : Course} {i : Nat} {t : Thread} {trap : Fault → Vm → Prop} {α : Type}

theorem map_serial_modify {threads : List Thread} {f : Thread → Thread} (found : threads[i]? = some t)
    (same : (f t).serial = t.serial) : (threads.modify i f).map (·.serial) = threads.map (·.serial) := by
  apply List.ext_getElem?
  intro j
  rw [List.getElem?_map, List.getElem?_map, List.getElem?_modify]
  by_cases here : i = j
  · subst here
    simp [found, same]
  · simp [here]

theorem triple_read {pre : Vm → Prop} {f : Thread → Js α} {post : α → Vm → Prop}
    (found : ∀ vm, pre vm → vm.threads[i]? = some t) (rest : Triple pre (f t) post trap) :
    Triple pre (thread i >>= f) post trap := by
  intro vm start
  have read : (thread i).run vm = .ok t vm := by
    unfold thread
    rw [EStateM.run_bind, EStateM.run_get]
    dsimp only
    rw [found vm start]
    rfl
  rw [EStateM.run_bind, read]
  exact rest vm start

theorem triple_blocks {pre : Vm → Prop} {f : Blocks → Js α} {post : α → Vm → Prop}
    (project : ∀ vm, pre vm → vm.project = c.project)
    (rest : Triple pre (f (c.project.blocks t.target)) post trap) : Triple pre (blocksOf t >>= f) post trap := by
  intro vm start
  rw [EStateM.run_bind, run_blocksOf, project vm start]
  exact rest vm start

theorem triple_value {pre : Vm → Prop} (steady : ∀ vm moment, pre vm → pre { vm with moment }) (block : Block)
    (name : String) : Triple pre (readInput block name)
      (fun value vm => pre vm ∧ ∀ other, block.constant name = some other → value = other) trap := by
  intro vm start
  cases constant : block.constant name with
  | some value =>
    rw [run_readInput constant]
    refine ⟨start, fun other same => ?_⟩
    cases same
    rfl
  | none =>
    have read : Triple pre (readInput block name) (fun _ => pre) trap := triple_readInput steady block name
    have outcome := read vm start
    cases ran : (readInput block name).run vm with
    | ok value vm' =>
      rw [ran] at outcome
      exact ⟨outcome, nofun⟩
    | error e vm' =>
      rw [ran] at outcome
      exact outcome

end Reads

variable [JavaScript] [Opcodes] {c : Course} {size : Nat} {bound : Nat → Nat} {i : Nat} {t : Thread}
  {said : List String} {trap : Fault → Vm → Prop}

section Updates

theorem Turn.update {vm : Vm} {f : Thread → Thread} (turn : c.Turn size bound i t said vm) (same : t.Same (f t)) :
    c.Turn size bound i (f t) said { vm with threads := vm.threads.modify i f } := by
  have serials := map_serial_modify (f := f) turn.found same.serial
  have member : ∀ u ∈ vm.threads.modify i f, u ∈ vm.threads ∨ u = f t := by
    intro u inside
    rcases mem_modify inside with old | ⟨t', found, rfl⟩
    · exact .inl old
    · rw [turn.found] at found
      cases found
      exact .inr rfl
  refine ⟨⟨turn.project, ?_, fun u inside => ?_, fun u inside => ?_, turn.told, turn.recorded, turn.spoken, turn.once,
    turn.awaited, fun steady serial early => ?_⟩, ?_, fun u inside killed => ?_, ?_, ?_, ?_, ?_, ?_,
    fun j u other found => ?_⟩
  · change ((vm.threads.modify i f).map _).Nodup
    rw [serials]
    exact turn.distinct
  · rcases member u inside with old | rfl
    · exact turn.early u old
    · rw [same.serial]
      exact turn.early t (List.mem_of_getElem? turn.found)
  · rcases member u inside with old | rfl
    · exact turn.monitor u old
    · rw [same.monitor]
      exact turn.monitor t (List.mem_of_getElem? turn.found)
  · rcases turn.ended steady serial early with ⟨u, inside, rfl⟩ | whole
    · left
      have listed : u.serial ∈ (vm.threads.modify i f).map (·.serial) := by
        rw [serials]
        exact List.mem_map_of_mem inside
      obtain ⟨u', inside', equal⟩ := List.mem_map.mp listed
      exact ⟨u', inside', equal⟩
    · exact .inr whole
  · rw [List.length_modify]
    exact turn.size
  · rcases member u inside with old | rfl
    · exact turn.stopped u old killed
    · rw [same.killed, turn.alive] at killed
      cases killed
  · simp [turn.found]
  · rw [same.serial]
    exact turn.said
  · rw [same.killed]
    exact turn.alive
  · rw [same.serial, same.target, same.topBlock]
    exact turn.started
  · rw [same.serial]
    exact turn.idle
  · have old : vm.threads[j]? = some u := by simpa [List.getElem?_modify, Ne.symm other] using found
    exact turn.others j u other old

theorem triple_update {f : Thread → Thread} (same : t.Same (f t)) :
    Triple (c.Turn size bound i t said) (updateThread i f) (fun _ => c.Turn size bound i (f t) said) trap :=
  fun _ turn => turn.update same

theorem triple_startBranch (branchNum : Nat) (isLoop : Bool) :
    Triple (c.Turn size bound i t said) (startBranch i branchNum isLoop)
      (fun _ => c.Turn size bound i (t.stepToBranch (c.project.blocks t.target) branchNum isLoop) said) trap := by
  apply triple_read fun vm turn => turn.found
  apply triple_blocks fun vm turn => turn.project
  exact triple_update (Thread.same_stepToBranch _ _ _ t)

theorem triple_loopTimes (times : Count) {counter : Count}
    (counts : (t.peekStackFrame.loopCounter.getD times).decrement = counter) :
    Triple (c.Turn size bound i t said) (loopTimes i times) (fun _ => c.Turn size bound i
      (if counter.nonnegative then
        (t.updateFrame ({ · with loopCounter := some counter })).stepToBranch (c.project.blocks t.target) 1 true
      else t.updateFrame ({ · with loopCounter := some counter })) said) trap := by
  have same := Thread.same_updateFrame ({ · with loopCounter := some counter }) t
  apply triple_read fun vm turn => turn.found
  dsimp only
  rw [counts]
  apply (triple_update same).bind
  intro _
  cases counter.nonnegative with
  | true =>
    rw [if_pos rfl, if_pos rfl, ← same.target]
    exact triple_startBranch 1 true
  | false => exact Triple.pure fun _ turn => turn

end Updates

section Orders

omit [JavaScript] [Opcodes] in
theorem serial_ne {threads : List Thread} (distinct : (threads.map (·.serial)).Nodup) {j : Nat} {u : Thread}
    (other : j ≠ i) (found : threads[i]? = some t) (found' : threads[j]? = some u) : u.serial ≠ t.serial := by
  intro same
  obtain ⟨inside, here⟩ := List.getElem?_eq_some_iff.mp found
  obtain ⟨inside', there⟩ := List.getElem?_eq_some_iff.mp found'
  apply other
  have listed : j < (threads.map (·.serial)).length := by simpa using inside'
  have equal : (threads.map (·.serial))[j]? = (threads.map (·.serial))[i]? := by
    rw [List.getElem?_map, List.getElem?_map, found, found', Option.map_some, Option.map_some, same]
  exact (List.getElem?_inj listed distinct).mp equal

omit [JavaScript] [Opcodes] in
theorem orders_append {vm vm' : Vm} {x : Execution} (executions : vm'.executions = vm.executions ++ [x])
    (executing : x.threads[x.index]? = some t) (serial : Nat) :
    vm'.orders serial = vm.orders serial ++ if t.serial = serial then [withoutToken x.message] else [] := by
  rw [orders, executions, List.filterMap_append, orders]
  congr 1
  rw [List.filterMap_cons, executing, Option.map_some]
  by_cases own : t.serial = serial
  · simp [own]
  · simp [own]

omit [JavaScript] [Opcodes] in
theorem ne_flag {message : String} {robot : RobotBlock} {argument : String}
    (without : withoutToken message = robot.order argument) : message ≠ "00 run" := by
  intro same
  have spaced : ' ' ∈ (robot.order argument).toList := by simp [RobotBlock.order]
  rw [← without, same] at spaced
  revert spaced
  decide

theorem Turn.record {vm vm' : Vm} {x : Execution} {order : String} (turn : c.Turn size bound i t said vm)
    (executing : x.threads[x.index]? = some t) (message : withoutToken x.message = order)
    (spoken : ∃ word ∈ (c.run t.serial).meaning, said ++ [order] <+: word) (project : vm'.project = vm.project)
    (threads : vm'.threads = vm.threads) (posted : vm'.posted = vm.posted ++ [x.message])
    (instructs : x.message ≠ "00 run") (executions : vm'.executions = vm.executions ++ [x])
    (serial : vm'.serial = vm.serial) (pending : vm'.pending = vm.pending) :
    c.Turn size bound i t (said ++ [order]) vm' := by
  have own : vm'.orders t.serial = said ++ [order] := by
    rw [orders_append executions executing, if_pos rfl, turn.said, message]
  have foreign : ∀ s, s ≠ t.serial → vm'.orders s = vm.orders s := by
    intro s other
    rw [orders_append executions executing, if_neg (Ne.symm other), List.append_nil]
  refine ⟨⟨project.trans turn.project, ?_, ?_, ?_, ?_, fun y member => ?_, fun s => ?_, ?_, ?_,
    fun steady s early => ?_⟩, ?_, ?_, ?_, own, turn.alive, turn.started, ?_, fun j u other found => ?_⟩
  · rw [threads]
    exact turn.distinct
  · rw [threads, serial]
    exact turn.early
  · rw [threads]
    exact turn.monitor
  · rw [posted, executions, List.filter_append, List.map_append, turn.told]
    simp [instructs]
  · rw [serial]
    rw [executions] at member
    rcases List.mem_append.mp member with old | new
    · exact turn.recorded y old
    · rw [List.mem_singleton.mp new]
      exact ⟨t, executing, turn.early t (List.mem_of_getElem? turn.found), turn.started⟩
  · by_cases same : s = t.serial
    · rw [same, own]
      exact spoken
    · rw [foreign s same]
      exact turn.spoken s
  · rw [pending]
    exact turn.once
  · rw [pending, serial]
    exact turn.awaited
  · rw [threads]
    by_cases same : s = t.serial
    · exact .inl ⟨t, List.mem_of_getElem? turn.found, same.symm⟩
    · rw [foreign s same]
      exact turn.ended steady s early
  · rw [threads]
    exact turn.size
  · rw [threads]
    exact turn.stopped
  · rw [threads]
    exact turn.found
  · rw [pending]
    exact turn.idle
  · rw [threads] at found
    rw [pending, foreign u.serial (serial_ne turn.distinct other turn.found found)]
    exact turn.others j u other found

omit [Opcodes] in
theorem run_instruct_at {vm : Vm} (id : BlockId) {robot : RobotBlock} {value : JsValue} {argument : String}
    (found : vm.threads[i]? = some t) (reads : robot.argument value = some argument) :
    ∃ (vm' : Vm) (x : Execution), (instruct i id robot value).run vm = .ok () vm' ∧ x.threads[x.index]? = some t ∧
      withoutToken x.message = robot.order argument ∧ vm'.project = vm.project ∧ vm'.threads = vm.threads ∧
      vm'.posted = vm.posted ++ [x.message] ∧ vm'.executions = vm.executions ++ [x] ∧ vm'.serial = vm.serial ∧
      vm'.pending = vm.pending := by
  cases threads : vm.threads with
  | nil => simp [threads] at found
  | cons first rest =>
    let message := instructionMessage (printedEntry (robot.entry first)) robot.instruction argument
    have posts : robot.message (printedEntry (robot.entry first)) value = some message := by
      rw [RobotBlock.message_eq, reads, Option.map_some]
    have without : withoutToken message = robot.order argument :=
      withoutToken_message (fun c member => (printedEntry_ascii (robot.entry first) c member).2)
      robot.instruction argument
    clear_value message
    let x : Execution := ⟨vm.threads, i, id, robot, message⟩
    let recorded : Vm := { vm with posted := vm.posted ++ [message], executions := vm.executions ++ [x] }
    unfold instruct
    rw [EStateM.run_bind, EStateM.run_get]
    dsimp only
    rw [threads]
    dsimp only
    rw [posts]
    dsimp only
    rw [← threads]
    cases robot.movesTarget with
    | false => exact ⟨recorded, x, rfl, found, without, rfl, rfl, rfl, rfl, rfl, rfl⟩
    | true =>
      exact ⟨{ recorded with
        moment := vm.moment + 1
        redrawRequested := vm.redrawRequested || (vm.world vm.moment).redraws },
        x, rfl, found, without, rfl, rfl, rfl, rfl, rfl, rfl⟩

omit [Opcodes] in
theorem run_instruct_fails {vm : Vm} {id : BlockId} {robot : RobotBlock} {value : JsValue}
    (found : vm.threads[i]? = some t) (fails : robot.argument value = none) :
    (instruct i id robot value).run vm = .error .typeError vm := by
  cases threads : vm.threads with
  | nil => simp [threads] at found
  | cons first rest =>
    have posts : robot.message (printedEntry (robot.entry first)) value = none := by
      rw [RobotBlock.message_eq, fails, Option.map_none]
    unfold instruct
    rw [EStateM.run_bind, EStateM.run_get]
    dsimp only
    rw [threads]
    dsimp only
    rw [posts]
    rfl

end Orders

end ArRobotCode.Scratch.Course
