import ArRobotCode.Scratch.Simulation

namespace ArRobotCode.Scratch.Vm

open Trapping BlockMachine

def refreshed (vm : Vm) : Vm := { vm with threads := vm.threads.filter (!·.isKilled), redrawRequested := false }

theorem filter_modify {f : Thread → Thread} {threads : List Thread} {i : Nat} {t : Thread}
    (killed : ∀ t ∈ threads, t.isKilled = true) (found : threads[i]? = some t) (alive : (f t).isKilled = false) :
    (threads.modify i f).filter (!·.isKilled) = [f t] := by
  induction threads generalizing i with
  | nil => cases found
  | cons first rest ih =>
    have restKilled : ∀ t ∈ rest, t.isKilled = true := fun t member => killed t (List.mem_cons_of_mem _ member)
    cases i with
    | zero =>
      cases found
      have none : rest.filter (!·.isKilled) = [] := by
        rw [List.filter_eq_nil_iff]
        intro t member
        simp [restKilled t member]
      simp [alive, none]
    | succ i =>
      have firstKilled := killed first List.mem_cons_self
      simp [firstKilled, ih restKilled found]

section Flag

variable [Opcodes] {vm : Vm} {target : Nat}

theorem run_startHat {hat : BlockId} (opcode : Opcodes.opcode hat = .eventWhenflagclicked)
    (found : ((vm.project.blocks target).getBlock hat).isSome)
    (stopped : ∀ t ∈ vm.threads, t.isKilled = true ∧ t.updateMonitor = false) :
    ∃ vm', (startHat hat target).run vm = .ok () vm' ∧ vm.Posts ["run"] vm' ∧
      ∃ serial, vm'.refreshed.threads = [.create serial hat target false false] := by
  obtain ⟨b, found⟩ := Option.isSome_iff_exists.mp found
  have killed : ∀ t ∈ vm.threads, t.isKilled = true := fun t member => (stopped t member).1
  have ran : (startHat hat target).run vm =
      ((vm.threads.findIdx? fun t => t.topBlock = hat ∧ !t.stackClick ∧ t.target = target).elim
        (pushThread hat target false false) restartThread).run { vm with posted := vm.posted ++ ["00 run"] } := by
    unfold startHat
    rw [EStateM.run_bind, EStateM.run_get]
    dsimp only
    rw [found]
    dsimp only
    rw [if_neg (by simp [opcode]), EStateM.run_bind, postMessage, EStateM.run_modify]
    dsimp only
    rw [EStateM.run_bind, EStateM.run_get]
    dsimp only
    cases vm.threads.findIdx? (fun t : Thread => t.topBlock = hat ∧ !t.stackClick ∧ t.target = target) <;> rfl
  have posts : ∀ threads serial,
      vm.Posts ["run"] { vm with threads, serial, posted := vm.posted ++ ["00 run"] } :=
    fun threads serial => ⟨rfl, ["00 run"], rfl, by decide⟩
  rw [ran]
  cases found : vm.threads.findIdx? (fun t : Thread => t.topBlock = hat ∧ !t.stackClick ∧ t.target = target) with
  | none =>
    refine ⟨_, rfl, posts _ _, vm.serial, ?_⟩
    have none : vm.threads.filter (!·.isKilled) = [] := by
      rw [List.filter_eq_nil_iff]
      intro t member
      simp [killed t member]
    simp [refreshed, none, Thread.create]
  | some i =>
    obtain ⟨inside, own, _⟩ := List.findIdx?_eq_some_iff_getElem.mp found
    simp only [Bool.not_eq_true', decide_eq_true_eq] at own
    obtain ⟨top, click, home⟩ := own
    have monitor := (stopped _ (List.getElem_mem inside)).2
    refine ⟨_, rfl, posts _ _, vm.serial, ?_⟩
    have replaced := @filter_modify (fun t => .create vm.serial t.topBlock t.target t.stackClick t.updateMonitor) _ _ _
      killed (List.getElem?_eq_getElem inside) rfl
    simp only [refreshed, replaced, top, click, home, monitor]

end Flag

section Runs

variable [JavaScript] [Opcodes]

/-- The thread has finished, or the machine has `n` steps to make in which it emits the orders. -/
def Remains (target n : Nat) (orders : List String) (vm : Vm) : Prop :=
  (vm.threads = [] ∧ orders = []) ∨ ∃ t stack, vm.threads = [t] ∧ stack ≠ [] ∧ t.Standing target stack ∧ Nested stack ∧
    Steps (vm.project.blocks target).node n stack orders []

variable {vm : Vm} {target n fuel : Nat} {orders : List String}

theorem run_visits {t t' : Thread} {vm' : Vm} (threads : vm.threads = [t]) (running : t.status = .running)
    (top : t.peekStack.isSome) (ran : (executeBlocks 0 fuel).run (vm.only t) = .ok () (vm'.only t')) :
    (visitFrom fuel 0 vm.threads.length).run vm = .ok (decide (t'.status = .running), t'.finished) (vm'.only t') := by
  have visited := run_visit running top ran
  rw [← eq_only threads] at visited
  rw [threads, List.length_singleton, visitFrom, EStateM.run_bind, visited]
  dsimp only
  rw [visitFrom, EStateM.run_bind, EStateM.run_pure]
  simp

theorem run_pass {t : Thread} {stack : Stack BlockId} (threads : vm.threads = [t]) (under : stack ≠ [])
    (standing : t.Standing target stack) (nested : Nested stack)
    (steps : Steps (vm.project.blocks target).node n stack orders []) (enough : n ≤ fuel) :
    ∃ (vm' : Vm) (active stoppedThread : Bool) (m : Nat) (first rest : List String),
      (visitFrom fuel 0 vm.threads.length).run vm = .ok (active, stoppedThread) vm' ∧ m < n ∧
      (vm'.removeStopped stoppedThread).Remains target m rest ∧ orders = first ++ rest ∧
      vm.Posts first (vm'.removeStopped stoppedThread) := by
  obtain ⟨vm', t', stack', m, first, rest, ran, fewer, standing', nested', steps', parts, posts⟩ :=
    run_until_yield standing nested under steps enough
  have visited := run_visits threads (standing.running under).status (standing.top under) ran
  refine ⟨_, _, _, m, first, rest, visited, fewer, ?_, parts, ?_⟩
  · cases stack' with
    | nil =>
      have finished : t'.finished = true := by simp [Thread.finished, standing'.levels]
      have ended : m = 0 ∧ rest = [] := by
        cases steps' with
        | refl => exact ⟨rfl, rfl⟩
        | step first later => cases first
      exact .inl ⟨by simp [removeStopped, only, finished], ended.2⟩
    | cons entry below =>
      have more : entry :: below ≠ [] := List.cons_ne_nil _ _
      have finished : t'.finished = false := by
        simp [Thread.finished, standing'.levels, (standing'.running more).status]
      refine .inr ⟨t', entry :: below, ?_, more, standing', nested', ?_⟩
      · rw [removeStopped, finished]
        rfl
      · simpa only [removeStopped, only, finished, Bool.false_eq_true, if_false, posts.project] using steps'
  · unfold removeStopped
    split <;> exact ⟨posts.project, posts.posted⟩

theorem run_stepThreads (remains : vm.Remains target n orders) (enough : n ≤ fuel) (budget : Nat)
    (numActiveThreads : Bool) :
    ∃ (vm' : Vm) (m : Nat) (first rest : List String), (stepThreads fuel numActiveThreads budget).run vm = .ok () vm' ∧
      m ≤ n ∧ vm'.Remains target m rest ∧ orders = first ++ rest ∧ vm.Posts first vm' := by
  induction budget generalizing vm n orders numActiveThreads with
  | zero => exact ⟨vm, n, [], orders, rfl, Nat.le_refl n, remains, rfl, .refl vm⟩
  | succ budget ih =>
    unfold stepThreads
    rw [EStateM.run_bind, EStateM.run_get]
    dsimp only
    split
    · rename_i goesOn
      rcases remains with ⟨none, _⟩ | ⟨t, stack, threads, under, standing, nested, steps⟩
      · simp [none] at goesOn
      · obtain ⟨vm₁, active, stopped, m, first, rest, ran, fewer, remains₁, parts, posts⟩ :=
          run_pass threads under standing nested steps enough
        obtain ⟨vm₂, m₂, first₂, rest₂, ran₂, fewer₂, remains₂, parts₂, posts₂⟩ :=
          ih remains₁ (show m ≤ fuel by omega) active
        refine ⟨vm₂, m₂, first ++ first₂, rest₂, ?_, by omega, remains₂, ?_, posts.trans posts₂⟩
        · rw [EStateM.run_bind, ran]
          exact ran₂
        · rw [parts, parts₂, List.append_assoc]
    · exact ⟨vm, n, [], orders, rfl, Nat.le_refl n, remains, rfl, .refl vm⟩

theorem run_tick_eq (unmonitored : vm.project.monitored = []) (budget : Nat) :
    (tick fuel budget).run vm = (stepThreads fuel true budget).run vm.refreshed := by
  unfold tick
  rw [EStateM.run_bind, EStateM.run_modify]
  dsimp only
  rw [EStateM.run_bind, EStateM.run_get]
  dsimp only
  rw [unmonitored]
  rfl

theorem Remains.refreshed (remains : vm.Remains target n orders) : vm.refreshed.Remains target n orders := by
  rcases remains with ⟨none, ended⟩ | ⟨t, stack, threads, under, standing, nested, steps⟩
  · exact .inl ⟨by simp [Vm.refreshed, none], ended⟩
  · have alive := (standing.running under).alive
    exact .inr ⟨t, stack, by simp [Vm.refreshed, threads, alive], under, standing, nested, steps⟩

theorem run_tick (unmonitored : vm.project.monitored = []) (remains : vm.refreshed.Remains target n orders)
    (enough : n ≤ fuel) (budget : Nat) :
    ∃ (vm' : Vm) (m : Nat) (first rest : List String), (tick fuel budget).run vm = .ok () vm' ∧
      m ≤ n - (if 1 ≤ budget then 1 else 0) ∧ vm'.Remains target m rest ∧ orders = first ++ rest ∧
      vm.Posts first vm' := by
  rw [run_tick_eq unmonitored]
  have posts₀ : vm.Posts [] vm.refreshed := ⟨rfl, [], by simp [Vm.refreshed], rfl⟩
  cases budget with
  | zero => exact ⟨vm.refreshed, n, [], orders, rfl, Nat.le_refl n, remains, rfl, posts₀⟩
  | succ budget =>
    rw [if_pos (Nat.le_add_left 1 budget)]
    unfold stepThreads
    rw [EStateM.run_bind, EStateM.run_get]
    dsimp only
    rcases remains with ⟨none, ended⟩ | ⟨t, stack, threads, under, standing, nested, steps⟩
    · rw [if_neg (by simp [none])]
      exact ⟨vm.refreshed, 0, [], [], rfl, Nat.zero_le _, .inl ⟨none, rfl⟩, by rw [ended]; rfl, posts₀⟩
    · rw [if_pos ⟨by simp [threads], rfl, .inr rfl⟩]
      obtain ⟨vm₁, active, stopped, m, first, rest, ran, fewer, remains₁, parts, posts⟩ :=
        run_pass threads under standing nested steps enough
      obtain ⟨vm₂, m₂, first₂, rest₂, ran₂, fewer₂, remains₂, parts₂, posts₂⟩ :=
        run_stepThreads remains₁ (show m ≤ fuel by omega) budget active
      refine ⟨vm₂, m₂, first ++ first₂, rest₂, ?_, by omega, remains₂, ?_, (posts₀.trans posts).trans posts₂⟩
      · rw [EStateM.run_bind, ran]
        exact ran₂
      · rw [parts, parts₂, List.append_assoc]

theorem Remains.ended (remains : vm.Remains target 0 orders) : vm.threads = [] ∧ orders = [] := by
  rcases remains with ended | ⟨t, stack, threads, under, standing, nested, steps⟩
  · exact ended
  · exact absurd (steps.pos under) (Nat.lt_irrefl 0)

theorem run_ticks (unmonitored : vm.project.monitored = []) (remains : vm.refreshed.Remains target n orders)
    (ticks : List (Nat × Nat)) (nonempty : ticks ≠ []) (enough : ∀ tick ∈ ticks, n ≤ tick.1)
    (passes : n ≤ ticks.countP (1 ≤ ·.2)) :
    ∃ vm', (runAll perform (ticks.map fun tick => .tick tick.1 tick.2)).run vm = .ok () vm' ∧ vm'.threads = [] ∧
      vm.Posts orders vm' := by
  induction ticks generalizing vm n orders with
  | nil => exact absurd rfl nonempty
  | cons tick ticks ih =>
    obtain ⟨fuel, budget⟩ := tick
    obtain ⟨vm₁, m, first, rest, ran, fewer, remains₁, parts, posts⟩ :=
      run_tick unmonitored remains (enough _ List.mem_cons_self) budget
    have passes' : m ≤ ticks.countP (1 ≤ ·.2) := by
      rw [List.countP_cons] at passes
      simp only [decide_eq_true_eq] at passes
      omega
    by_cases last : ticks = []
    · subst last
      cases Nat.le_zero.mp passes'
      obtain ⟨none, rfl⟩ := remains₁.ended
      refine ⟨vm₁, ?_, none, ?_⟩
      · rw [List.map_cons, runAll_cons_ok]
        exact ⟨vm₁, ran, rfl⟩
      · rw [parts, List.append_nil]
        exact posts
    · obtain ⟨vm₂, ran₂, none, posts₂⟩ := ih (by rw [posts.project]; exact unmonitored) remains₁.refreshed last
        (fun tick member => Nat.le_trans (by omega) (enough tick (List.mem_cons_of_mem _ member))) passes'
      refine ⟨vm₂, ?_, none, ?_⟩
      · rw [List.map_cons, runAll_cons_ok]
        exact ⟨vm₁, ran, ran₂⟩
      · rw [parts]
        exact posts.trans posts₂

/-- The VM whose workspace holds a single script, under a hat of the green flag, and no monitor. -/
structure Carries (target : Nat) (hat : BlockId) (script : Script) (vm : Vm) : Prop where
  single : vm.project.allScripts = [(hat, target)]
  opcode : Opcodes.opcode hat = .eventWhenflagclicked
  laid : ∃ b, (vm.project.blocks target).getBlock hat = some b ∧ script.Laid (vm.project.blocks target) b.next
  unmonitored : vm.project.monitored = []
  monitorless : ∀ t ∈ vm.threads, t.updateMonitor = false

theorem run_greenFlag {hat : BlockId} {script : Script} (carries : vm.Carries target hat script) :
    ∃ vm', greenFlag.run vm = .ok () vm' ∧ vm.Posts ["run"] vm' ∧
      ∃ serial, vm'.refreshed.threads = [.create serial hat target false false] := by
  obtain ⟨b, found, _⟩ := carries.laid
  let stopped : Vm := { vm with threads := vm.threads.map .stop }
  have killed : ∀ t ∈ stopped.threads, t.isKilled = true ∧ t.updateMonitor = false := by
    intro t member
    obtain ⟨u, inside, rfl⟩ := List.mem_map.mp member
    exact ⟨rfl, carries.monitorless u inside⟩
  obtain ⟨vm', ran, posts, fresh⟩ :=
    @run_startHat _ stopped target hat carries.opcode (by simp [stopped, found]) killed
  refine ⟨vm', ?_, ⟨posts.project, posts.posted⟩, fresh⟩
  unfold greenFlag
  rw [EStateM.run_bind, stopAll, EStateM.run_modify]
  dsimp only
  rw [EStateM.run_bind, EStateM.run_get]
  dsimp only
  rw [carries.single, startHats, runAll_cons_ok]
  exact ⟨vm', ran, rfl⟩

/-- On whatever schedule of ticks after a click on the flag, the thread of the script ends, and the orders that the VM
    has posted are the trace of the script. -/
def Completes (vm : Vm) (script : Script) : Prop :=
  ∃ steps, ∀ ticks : List (Nat × Nat), (∀ tick ∈ ticks, steps ≤ tick.1) → steps ≤ ticks.countP (1 ≤ ·.2) →
    ∃ vm', (runAll perform (.greenFlag :: ticks.map fun tick => .tick tick.1 tick.2)).run vm = .ok () vm' ∧
      vm'.threads = [] ∧ vm.Posts ("run" :: script.trace) vm'

theorem Carries.remains {script : Script} {hat : BlockId} (exact : script.Exact)
    (carries : vm.Carries target hat script) :
    ∃ vm' steps, greenFlag.run vm = .ok () vm' ∧ vm.Posts ["run"] vm' ∧ 0 < steps ∧
      vm'.refreshed.Remains target steps script.trace := by
  obtain ⟨vm', ran, posts, serial, threads⟩ := run_greenFlag carries
  obtain ⟨b, found, laid⟩ := carries.laid
  have node : (vm.project.blocks target).node hat = some (.emit [] b.next) := by
    simp [Blocks.node, found, carries.opcode]
  have whole : (BlockMachine.Script.emit hat [] script.machine).Laid (vm.project.blocks target).node (some hat) :=
    ⟨rfl, b.next, node, laid.machine exact⟩
  obtain ⟨n, steps⟩ := whole.run []
  rw [BlockMachine.Script.trace, script.trace_machine, List.nil_append] at steps
  have left : vm'.refreshed.Remains target n script.trace := by
    refine .inr ⟨_, _, threads, List.cons_ne_nil _ _, Thread.create_standing serial hat target, by simp [Nested], ?_⟩
    rw [refreshed, posts.project]
    exact steps
  exact ⟨vm', n, ran, posts, steps.pos (List.cons_ne_nil _ _), left⟩

theorem Carries.completes {script : Script} {hat : BlockId} (exact : script.Exact)
    (carries : vm.Carries target hat script) : vm.Completes script := by
  obtain ⟨vm', steps, ran, posts, more, remains⟩ := carries.remains exact
  refine ⟨steps, fun ticks enough passes => ?_⟩
  have unmonitored : vm'.project.monitored = [] := by rw [posts.project, carries.unmonitored]
  have nonempty : ticks ≠ [] := by
    intro none
    subst none
    exact absurd passes (Nat.not_le_of_lt more)
  obtain ⟨vm'', ran', none, posts'⟩ := run_ticks unmonitored remains ticks nonempty enough passes
  exact ⟨vm'', runAll_cons_ok.mpr ⟨vm', ran, ran'⟩, none, posts.trans posts'⟩

end Runs

end ArRobotCode.Scratch.Vm
