import ArRobotCode.Scratch.CourseEvents

namespace ArRobotCode.Scratch.Course

open Structured Trapping Vm

variable [JavaScript] [Opcodes] {c : Course} {m n fuel : Nat} {bound : Nat → Nat} {t : Thread} {vm : Vm}
  {said : List String} {p : Program} {top : BlockId} {target : Nat}

section Launches

def assign (c : Course) (serial : Nat) (p : Program) : Course := { c with run := Function.update c.run serial p }

omit [JavaScript] [Opcodes] in
theorem assign_self (c : Course) (serial : Nat) (p : Program) : (c.assign serial p).run serial = p :=
  Function.update_self ..

omit [JavaScript] [Opcodes] in
theorem assign_run {serial : Nat} (other : t.serial ≠ serial) : (c.assign serial p).run t.serial = c.run t.serial :=
  Function.update_of_ne other _ _

theorem Holds.unspoken (holds : c.Holds vm) : vm.orders vm.serial = [] := by
  unfold orders
  rw [List.filterMap_eq_nil_iff]
  intro x member
  obtain ⟨t, executing, early, _⟩ := holds.recorded x member
  simp [executing, early.ne]

theorem Rests.assign {serial : Nat} (rests : c.Rests said n t) (other : t.serial ≠ serial) :
    (c.assign serial p).Rests said n t := by
  have same := assign_run (c := c) (p := p) other
  cases rests with
  | ended status stack whole => exact .ended status stack (same ▸ whole)
  | on status stands continues few settled =>
    exact .on status stands ⟨same ▸ continues.words, continues.calm⟩ few settled
  | waits status stack later rest continues unsteady =>
    exact .waits status stack later rest ⟨same ▸ continues.words, continues.calm⟩ unsteady

theorem Kept.assign {pending : List Nat} {serial : Nat} (kept : c.Kept said pending n t) (other : t.serial ≠ serial) :
    (c.assign serial p).Kept said pending n t := by
  rcases kept with ⟨alive, started, idle, rests⟩ | killed
  · exact .inl ⟨alive, (assign_run (c := c) (p := p) other).symm ▸ started, idle, rests.assign other⟩
  · exact .inr killed

theorem Holds.assign (holds : c.Holds vm) (unsteady : ¬ c.steady) (vocal : p.Vocal) :
    (c.assign vm.serial p).Holds vm := by
  refine ⟨holds.project, holds.distinct, holds.early, holds.monitor, holds.told, fun x member => ?_, fun serial => ?_,
    holds.once, holds.awaited, fun steady => absurd steady unsteady⟩
  · obtain ⟨t, executing, early, laid⟩ := holds.recorded x member
    exact ⟨t, executing, early, (assign_run (c := c) (p := p) early.ne).symm ▸ laid⟩
  · by_cases new : serial = vm.serial
    · obtain ⟨word, inside⟩ := vocal.meaning_nonempty
      refine ⟨word, ?_, ?_⟩
      · rw [new, assign_self]
        exact inside
      · rw [new, holds.unspoken]
        exact List.nil_prefix
    · have same : (c.assign vm.serial p).run serial = c.run serial := Function.update_of_ne new _ _
      rw [same]
      exact holds.spoken serial

theorem Rests.create {serial : Nat} {stackClick : Bool}
    (laid : (c.run serial).Laid (c.project.blocks target) (some top))
    (calm : c.steady → (c.run serial).Steady ∧ (c.run serial).steps ≤ n) :
    c.Rests [] n (.create serial top target stackClick false) := by
  refine .on rfl (.on (.fresh laid) .nil) ⟨fun word member => ?_, fun steady q member => ?_⟩ (fun steady => ?_) ?_
  · change word ∈ (c.run serial).meaning
    simpa [remaining] using member
  · rw [List.mem_singleton.mp member]
    exact (calm steady).1
  · simpa [stepsLeft] using (calm steady).2
  · simp [Settled, Thread.create]

theorem Follows.launch {threads' : List Thread} {stackClick : Bool} (follows : c.Follows bound vm)
    (unsteady : ¬ c.steady) (laid : p.Laid (c.project.blocks target) (some top))
    (each : ∀ (j : Nat) (u : Thread), threads'[j]? = some u → u ∈ vm.threads ∨
      u = .create vm.serial top target stackClick false)
    (distinct : (threads'.map (·.serial)).Nodup) :
    (c.assign vm.serial p).Follows bound { vm with threads := threads', serial := vm.serial + 1 } := by
  have holds := follows.toHolds.assign (p := p) unsteady laid.vocal
  have either : ∀ u ∈ threads', u ∈ vm.threads ∨ u = .create vm.serial top target stackClick false := by
    intro u member
    obtain ⟨j, found⟩ := List.getElem?_of_mem member
    exact each j u found
  refine ⟨⟨holds.project, distinct, fun u member => ?_, fun u member => ?_, holds.told, fun x member => ?_,
    holds.spoken, holds.once, fun serial pending => (holds.awaited serial pending).trans (Nat.lt_succ_self _),
    fun steady => absurd steady unsteady⟩, fun j u found => ?_⟩
  · rcases either u member with old | rfl
    · exact (holds.early u old).trans (Nat.lt_succ_self _)
    · exact Nat.lt_succ_self _
  · rcases either u member with old | rfl
    · exact holds.monitor u old
    · rfl
  · obtain ⟨t, executing, early, laid'⟩ := holds.recorded x member
    exact ⟨t, executing, early.trans (Nat.lt_succ_self _), laid'⟩
  · rcases each j u found with old | rfl
    · obtain ⟨i, found'⟩ := List.getElem?_of_mem old
      exact ((follows.kept i u found').mono fun steady => absurd steady unsteady).assign (follows.early u old).ne
    · have laid' : ((c.assign vm.serial p).run vm.serial).Laid (c.project.blocks target) (some top) := by
        rwa [assign_self]
      refine .inl ⟨rfl, laid', fun pending => ?_, ?_⟩
      · exact absurd (holds.awaited _ pending) (lt_irrefl _)
      · have silent : vm.orders vm.serial = [] := follows.unspoken
        change Rests _ (vm.orders vm.serial) _ _
        rw [silent]
        exact .create laid' fun steady => absurd steady unsteady

theorem Follows.push {stackClick : Bool} (follows : c.Follows bound vm) (unsteady : ¬ c.steady)
    (laid : p.Laid (c.project.blocks target) (some top)) :
    (c.assign vm.serial p).Follows bound { vm with
      threads := vm.threads ++ [.create vm.serial top target stackClick false]
      serial := vm.serial + 1 } := by
  apply follows.launch unsteady laid
  · intro j u found
    simpa using List.mem_of_getElem? found
  · rw [List.map_append, List.nodup_append]
    refine ⟨follows.distinct, List.nodup_singleton _, fun serial old serial' new => ?_⟩
    obtain ⟨t, member, rfl⟩ := List.mem_map.mp old
    rw [List.mem_singleton.mp new]
    exact (follows.early t member).ne

omit [JavaScript] [Opcodes] in
theorem map_serial_restart (threads : List Thread) (i serial : Nat) :
    (threads.modify i fun t => .create serial t.topBlock t.target t.stackClick t.updateMonitor).map (·.serial) =
      (threads.map (·.serial)).set i serial := by
  apply List.ext_getElem?
  intro j
  rw [List.getElem?_map, List.getElem?_modify, List.getElem?_set]
  by_cases here : i = j
  · subst here
    by_cases inside : i < threads.length <;> simp [inside, Thread.create]
  · simp [here]

theorem Follows.restart {i : Nat} (follows : c.Follows bound vm) (unsteady : ¬ c.steady)
    (found : vm.threads[i]? = some t) (laid : p.Laid (c.project.blocks t.target) (some t.topBlock)) :
    (c.assign vm.serial p).Follows bound { vm with
      threads := vm.threads.modify i fun t => .create vm.serial t.topBlock t.target t.stackClick t.updateMonitor
      serial := vm.serial + 1 } := by
  have monitor := follows.monitor t (List.mem_of_getElem? found)
  apply follows.launch unsteady laid
  · intro j u found'
    rcases mem_modify (List.mem_of_getElem? found') with old | ⟨t', found'', rfl⟩
    · exact .inl old
    · rw [found] at found''
      cases found''
      rw [monitor]
      exact .inr rfl
  · rw [map_serial_restart]
    refine follows.distinct.set fun old => ?_
    obtain ⟨u, member, same⟩ := List.mem_map.mp old
    exact (follows.early u member).ne same

end Launches

section Flags

/-- Each thread goes through a program that the blocks of the project spell. -/
def Orderly (project : Project) (vm : Vm) : Prop :=
  ∃ run : Nat → Program, Follows ⟨project, run, 0, False⟩ (fun _ => 0) vm

variable {project : Project}

theorem Follows.flag (follows : c.Follows bound vm) :
    c.Follows bound { vm with posted := vm.posted ++ ["00 run"] } := by
  refine ⟨⟨follows.project, follows.distinct, follows.early, follows.monitor, ?_, follows.recorded, follows.spoken,
    follows.once, follows.awaited, follows.ended⟩, follows.kept⟩
  rw [List.filter_append, follows.told]
  simp

theorem triple_startHat (spelled : Opcodes.opcode top = .eventWhenflagclicked →
      ∃ p, Program.Laid (project.blocks target) (some top) p) :
    Triple (Orderly project) (startHat top target) (fun _ => Orderly project) (fun _ => Orderly project) := by
  unfold startHat
  apply Triple.get_bind
  intro before
  split
  · exact Triple.throw fun vm orderly => orderly
  · split
    · exact Triple.pure fun vm orderly => orderly
    · rename_i flag
      obtain ⟨p, laid⟩ := spelled (not_not.mp flag)
      have flagged :
          Triple (Orderly project) (postMessage "00 run") (fun _ => Orderly project) fun _ => Orderly project :=
        Triple.modify fun vm orderly => orderly.imp fun run follows => follows.flag
      apply flagged.bind
      intro _
      apply Triple.read_bind
      intro vm orderly
      obtain ⟨run, follows⟩ := orderly
      split
      · rename_i i running
        obtain ⟨inside, same, _⟩ := List.findIdx?_eq_some_iff_getElem.mp running
        simp only [decide_eq_true_eq] at same
        apply Triple.modify
        intro vm' same'
        rw [same']
        have laid' : p.Laid (project.blocks vm.threads[i].target) (some vm.threads[i].topBlock) := by
          rw [same.1, same.2.2]
          exact laid
        exact ⟨_, follows.restart id (List.getElem?_eq_getElem inside) laid'⟩
      · apply Triple.modify
        intro vm' same'
        rw [same']
        exact ⟨_, follows.push id laid⟩

theorem triple_stopAll :
    Triple (Orderly project) Vm.stopAll (fun _ => Orderly project) (fun _ => Orderly project) := by
  apply Triple.modify
  intro vm orderly
  obtain ⟨run, follows⟩ := orderly
  exact ⟨run, follows.stops id (stopsSome_map _)⟩

theorem triple_greenFlag (spelled : ∀ script ∈ project.allScripts, Opcodes.opcode script.1 = .eventWhenflagclicked →
      ∃ p, Program.Laid (project.blocks script.2) (some script.1) p) :
    Triple (Orderly project) greenFlag (fun _ => Orderly project) (fun _ => Orderly project) := by
  apply triple_stopAll.bind
  intro _
  apply Triple.read_bind
  intro vm orderly
  obtain ⟨run, follows⟩ := orderly
  have started : Triple (Orderly project) (startHats project.allScripts) (fun _ => Orderly project) fun _ =>
      Orderly project :=
    Triple.runAll fun script member => triple_startHat (spelled script member)
  rw [follows.project]
  exact started.strengthen fun vm' same => same ▸ ⟨run, follows⟩

end Flags

section Events

variable {project : Project}

/-- The project stays as it is, and a script that is clicked is spelled by its blocks. -/
def Permitted (project : Project) : Event → Prop
  | .toggleScript top target _ => ∃ p, Program.Laid (project.blocks target) (some top) p
  | .edit _ => False
  | _ => True

theorem triple_toggleScript {stackClick : Bool} (laid : p.Laid (project.blocks target) (some top)) :
    Triple (Orderly project) (toggleScript top target stackClick) (fun _ => Orderly project)
      (fun _ => Orderly project) := by
  unfold toggleScript
  apply Triple.read_bind
  intro vm orderly
  obtain ⟨run, follows⟩ := orderly
  split
  · apply Triple.modify
    intro vm' same
    rw [same]
    exact ⟨run, follows.stops id (stopsSome_modify _ _)⟩
  · apply Triple.modify
    intro vm' same
    rw [same]
    exact ⟨_, follows.push id laid⟩

theorem Rests.promiseResolved (rests : c.Rests said n t) (status : t.status = .promiseWait) :
    c.Rests said n (t.promiseResolved (c.project.blocks t.target)) := by
  cases rests with
  | ended done _ _ =>
    rw [done] at status
    cases status
  | on running _ _ _ _ =>
    rw [running] at status
    cases status
  | waits _ stack later rest continues unsteady =>
    obtain ⟨k', stands, leads, settled⟩ := stands_afterPromise rest later
    have stack' : (t.promiseResolved (c.project.blocks t.target)).stack =
        Thread.afterPromise (c.project.blocks t.target) t.stack := rfl
    rw [stack] at stack'
    refine .on rfl (stack' ▸ stands) (continues.silent leads fun steady => absurd steady unsteady)
      (fun steady => absurd steady unsteady) (stack' ▸ settled)

theorem Kept.promiseResolved {pending : List Nat} (kept : c.Kept said pending n t) (once : pending.Nodup)
    (awaited : t.serial ∈ pending) :
    c.Kept said (pending.erase t.serial) n (t.promiseResolved (c.project.blocks t.target)) := by
  rcases kept with ⟨alive, started, idle, rests⟩ | killed
  · refine .inl ⟨alive, started, fun pending' => ?_, rests.promiseResolved (idle awaited)⟩
    exact absurd pending' once.not_mem_erase
  · exact .inr killed

theorem Follows.promiseResolved {serial : Nat} (follows : c.Follows bound vm) (awaited : serial ∈ vm.pending) :
    c.Follows bound { vm with
      pending := vm.pending.erase serial
      threads := vm.threads.map fun t =>
        if t.serial = serial then t.promiseResolved (vm.project.blocks t.target) else t } := by
  let f (t : Thread) : Thread := if t.serial = serial then t.promiseResolved (vm.project.blocks t.target) else t
  have own : ∀ t, (f t).serial = t.serial ∧ (f t).updateMonitor = t.updateMonitor := by
    intro t
    unfold f
    split <;> exact ⟨rfl, rfl⟩
  have serials : (vm.threads.map f).map (·.serial) = vm.threads.map (·.serial) := by
    rw [List.map_map]
    exact List.map_congr_left fun t _ => (own t).1
  refine ⟨⟨follows.project, ?_, fun u member => ?_, fun u member => ?_, follows.told, follows.recorded, follows.spoken,
    follows.once.erase _, fun s pending => follows.awaited s (List.mem_of_mem_erase pending),
    fun steady s begun => ?_⟩, fun j u found => ?_⟩
  · change ((vm.threads.map f).map _).Nodup
    rw [serials]
    exact follows.distinct
  · obtain ⟨t, old, rfl⟩ := List.mem_map.mp member
    exact (own t).1.trans_lt (follows.early t old)
  · obtain ⟨t, old, rfl⟩ := List.mem_map.mp member
    exact (own t).2.trans (follows.monitor t old)
  · rcases follows.ended steady s begun with ⟨t, member, same⟩ | whole
    · exact .inl ⟨f t, List.mem_map_of_mem member, (own t).1.trans same⟩
    · exact .inr whole
  · change (vm.threads.map f)[j]? = some u at found
    rw [List.getElem?_map, Option.map_eq_some_iff] at found
    obtain ⟨t, old, rfl⟩ := found
    have kept := follows.kept j t old
    change Kept _ (vm.orders (f t).serial) (vm.pending.erase serial) _ _
    rw [(own t).1]
    unfold f
    split
    · rename_i same
      subst same
      rw [follows.project]
      exact kept.promiseResolved follows.once awaited
    · rcases kept with ⟨alive, started, idle, rests⟩ | killed
      · exact .inl ⟨alive, started, fun pending => idle (List.mem_of_mem_erase pending), rests⟩
      · exact .inr killed

theorem triple_promiseResolved (serial : Nat) :
    Triple (Orderly project) (promiseResolved serial) (fun _ => Orderly project) (fun _ => Orderly project) := by
  apply Triple.modify
  intro vm orderly
  obtain ⟨run, follows⟩ := orderly
  split
  · rename_i awaited
    exact ⟨run, follows.promiseResolved awaited⟩
  · exact ⟨run, follows⟩

theorem triple_tick (unmonitored : c.project.monitored = []) (enough : c.steady → m ≤ fuel ∧ 1 ≤ fuel) (budget : Nat) :
    Triple (c.Follows fun _ => m) (tick fuel budget) (fun _ => c.Follows fun _ => m - min budget 1)
      (fun _ vm => c.Follows (fun _ => 0) vm ∧ ¬ c.steady) := by
  have follows : ∀ {n vm}, c.Between n vm → c.Follows (fun _ => n) vm := fun ⟨_, ticks⟩ => ticks.toFollows
  have refreshes : Triple (c.Follows fun _ => m)
      (modify fun vm => { vm with threads := vm.threads.filter (!·.isKilled), redrawRequested := false } : Js Unit)
      (fun _ vm => c.Between m vm ∧ vm.redrawRequested = false)
      (fun _ vm => c.Follows (fun _ => 0) vm ∧ ¬ c.steady) := by
    apply Triple.modify
    intro vm start
    have killed : c.steady → ∀ t ∈ vm.threads, (!t.isKilled) = false →
        vm.orders t.serial ∈ (c.run t.serial).meaning := by
      intro steady t member stopped
      obtain ⟨i, found⟩ := List.getElem?_of_mem member
      rcases start.kept i t found with ⟨alive, _, _, _⟩ | ⟨_, unsteady⟩
      · simp [alive] at stopped
      · exact absurd steady unsteady
    have filtered := start.filter killed
    refine ⟨⟨_, ⟨⟨filtered.toHolds.congr rfl rfl rfl rfl rfl rfl, filtered.kept⟩, rfl, fun t member stopped => ?_⟩⟩,
      rfl⟩
    have alive := (List.mem_filter.mp member).2
    simp [stopped] at alive
  unfold tick
  apply refreshes.bind
  intro _
  apply Triple.read_bind
  intro vm between
  rw [between.1.choose_spec.project, unmonitored]
  have passes : Triple (fun vm => c.Between m vm ∧ vm.redrawRequested = false) (stepThreads fuel true budget)
      (fun _ => c.Between (m - min budget 1)) c.Breaks := by
    cases budget with
    | zero => exact Triple.pure fun vm start => start.1
    | succ budget =>
      have least : min (budget + 1) 1 = 1 := by omega
      rw [least]
      exact triple_stepThreads_first enough
  have steps := (passes.conclude fun _ vm => follows).weaken fun _ vm breaks =>
    (⟨follows breaks.1, breaks.2⟩ : c.Follows (fun _ => 0) vm ∧ ¬ c.steady)
  exact steps.strengthen fun vm' same => same ▸ between

theorem triple_orderly_tick (unmonitored : project.monitored = []) (budget : Nat) :
    Triple (Orderly project) (tick fuel budget) (fun _ => Orderly project) (fun _ => Orderly project) := by
  intro vm orderly
  obtain ⟨run, follows⟩ := orderly
  have ticks : Triple _ (tick fuel budget) _ _ :=
    triple_tick (c := ⟨project, run, 0, False⟩) (m := 0) unmonitored nofun budget
  refine ((ticks.conclude fun _ vm follows' => ?_).weaken fun _ vm fails => ?_) vm follows
  · exact ⟨run, by simpa using follows'⟩
  · exact ⟨run, fails.1⟩

theorem triple_perform {event : Event} (unmonitored : project.monitored = [])
    (spelled : ∀ script ∈ project.allScripts, Opcodes.opcode script.1 = .eventWhenflagclicked →
      ∃ p, Program.Laid (project.blocks script.2) (some script.1) p) (permitted : Permitted project event) :
    Triple (Orderly project) (perform event) (fun _ => Orderly project) (fun _ => Orderly project) := by
  cases event with
  | greenFlag => exact triple_greenFlag spelled
  | stopAll => exact triple_stopAll
  | toggleScript top target stackClick =>
    obtain ⟨p, laid⟩ := permitted
    exact triple_toggleScript laid
  | stopForTarget target =>
    apply Triple.modify
    intro vm orderly
    obtain ⟨run, follows⟩ := orderly
    exact ⟨run, follows.stops id (stopsSome_mapIdx _ fun i t => t.target = target ∧ none ≠ some i)⟩
  | tick fuel budget => exact triple_orderly_tick unmonitored budget
  | promiseResolved serial => exact triple_promiseResolved serial
  | edit project => exact permitted.elim
  | setTurboMode turboMode =>
    apply Triple.modify
    intro vm orderly
    obtain ⟨run, follows⟩ := orderly
    exact ⟨run, follows.toHolds.congr rfl rfl rfl rfl rfl rfl, follows.kept⟩

theorem orderly_create (project : Project) (world : Nat → Answer) : Orderly project (Vm.create project world) := by
  refine ⟨fun _ => .done, ⟨rfl, List.nodup_nil, nofun, nofun, rfl, nofun, fun serial => ?_, List.nodup_nil,
    nofun, nofun⟩, ?_⟩
  · exact ⟨[], Language.nil_mem_one, List.nil_prefix⟩
  · intro i t found
    cases found

theorem orderly_after (unmonitored : project.monitored = [])
    (spelled : ∀ script ∈ project.allScripts, Opcodes.opcode script.1 = .eventWhenflagclicked →
      ∃ p, Program.Laid (project.blocks script.2) (some script.1) p) {events : List Event}
    (permitted : ∀ event ∈ events, Permitted project event) (orderly : Orderly project vm) :
    Orderly project (vm.after events) := by
  induction events generalizing vm with
  | nil => exact orderly
  | cons event events ih =>
    have performed := triple_perform unmonitored spelled (permitted event List.mem_cons_self) vm orderly
    apply ih fun event member => permitted event (List.mem_cons_of_mem _ member)
    unfold final
    split <;> rename_i ran <;> rw [ran] at performed <;> exact performed

end Events

end ArRobotCode.Scratch.Course
