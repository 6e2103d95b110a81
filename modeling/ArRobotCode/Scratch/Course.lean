import ArRobotCode.Scratch.Executions
import ArRobotCode.Scratch.Standing

namespace ArRobotCode.Scratch

open Structured Trapping

namespace Vm

/-- What one run of a script has said, in the order in which it was posted. -/
def orders (vm : Vm) (serial : Nat) : List String :=
  vm.executions.filterMap fun x =>
    if (x.threads[x.index]?).map (·.serial) = some serial then some (withoutToken x.message) else none

end Vm

section Threads

structure Thread.Same (t t' : Thread) : Prop where
  serial : t'.serial = t.serial
  topBlock : t'.topBlock = t.topBlock
  target : t'.target = t.target
  monitor : t'.updateMonitor = t.updateMonitor
  killed : t'.isKilled = t.isKilled

namespace Thread

variable {t t' t'' : Thread}

theorem Same.refl (t : Thread) : t.Same t := ⟨rfl, rfl, rfl, rfl, rfl⟩

theorem Same.trans (one : t.Same t') (two : t'.Same t'') : t.Same t'' :=
  ⟨two.serial.trans one.serial, two.topBlock.trans one.topBlock, two.target.trans one.target,
    two.monitor.trans one.monitor, two.killed.trans one.killed⟩

theorem same_updateFrame (f : Frame → Frame) (t : Thread) : t.Same (t.updateFrame f) := by
  unfold updateFrame
  cases t.stack <;> exact ⟨rfl, rfl, rfl, rfl, rfl⟩

theorem same_pushStack (id : Option BlockId) (t : Thread) : t.Same (t.pushStack id) := ⟨rfl, rfl, rfl, rfl, rfl⟩

theorem same_popStack (t : Thread) : t.Same t.popStack := ⟨rfl, rfl, rfl, rfl, rfl⟩

theorem same_setStatus (status : Status) (t : Thread) : t.Same (t.setStatus status) := ⟨rfl, rfl, rfl, rfl, rfl⟩

theorem same_goToNextBlock (blocks : Blocks) (t : Thread) : t.Same (t.goToNextBlock blocks) := by
  unfold goToNextBlock reuseStackForNextBlock
  cases t.stack <;> exact ⟨rfl, rfl, rfl, rfl, rfl⟩

theorem same_switchFrom (id : BlockId) (blocks : Blocks) (t : Thread) : t.Same (t.switchFrom id blocks) := by
  unfold switchFrom
  split
  · exact same_goToNextBlock blocks t
  · exact .refl t

theorem same_popNull (t : Thread) : t.Same t.popNull := by
  unfold popNull
  split
  · exact same_popStack t
  · exact .refl t

theorem same_stepToBranch (blocks : Blocks) (branchNum : Nat) (isLoop : Bool) (t : Thread) :
    t.Same (t.stepToBranch blocks branchNum isLoop) :=
  (same_updateFrame _ t).trans (same_pushStack _ _)

theorem updateFrame_status (f : Frame → Frame) (t : Thread) : (t.updateFrame f).status = t.status := by
  unfold updateFrame
  cases t.stack <;> rfl

theorem stepToBranch_status (blocks : Blocks) (branchNum : Nat) (isLoop : Bool) (t : Thread) :
    (t.stepToBranch blocks branchNum isLoop).status = t.status := updateFrame_status _ t

theorem same_waitForPromise (t : Thread) : t.Same t.waitForPromise := by
  unfold waitForPromise
  split
  · exact same_setStatus _ t
  · exact .refl t

theorem same_stopThisScript [Opcodes] (blocks : Blocks) (t : Thread) : t.Same (t.stopThisScript blocks) := by
  unfold stopThisScript
  dsimp only
  split <;> exact ⟨rfl, rfl, rfl, rfl, rfl⟩

end Thread

end Threads

/-- The runs of scripts by their serials, how many have begun, and whether all are known to come to their ends. -/
structure Course where
  project : Project
  run : Nat → Program
  begun : Nat
  steady : Prop

namespace Course

variable [JavaScript] [Opcodes]

/-- What is still to be run can be said after what has been said. -/
structure Continues (c : Course) (said : List String) (serial : Nat) (k : List Program) : Prop where
  words : ∀ word ∈ remaining k, said ++ word ∈ (c.run serial).meaning
  calm : c.steady → ∀ p ∈ k, p.Steady

/-- Where a thread stands between two turns: at most `bound` steps from its end where it is known to reach it. -/
inductive Rests (c : Course) (said : List String) (bound : Nat) (t : Thread) : Prop
  | ended (status : t.status = .done) (stack : t.stack = []) (whole : c.steady → said ∈ (c.run t.serial).meaning)
  | on {k : List Program} (status : t.status = .running) (stands : Stands (c.project.blocks t.target) t.stack k)
      (continues : c.Continues said t.serial k) (few : c.steady → stepsLeft k ≤ bound) (settled : Settled t.stack)
  | waits {id : BlockId} {below : List Level} {next : Program} {k : List Program} (status : t.status = .promiseWait)
      (stack : t.stack = ⟨some id, {}⟩ :: below) (later : List.Forall₂ (Awaits (c.project.blocks t.target)) below k)
      (rest : next.Laid (c.project.blocks t.target) ((c.project.blocks t.target).getNextBlock id))
      (continues : c.Continues said t.serial (next :: k)) (unsteady : ¬ c.steady)

/-- A thread that has not been stopped from outside runs the program of its serial. -/
structure Alive (c : Course) (said : List String) (pending : List Nat) (bound : Nat) (t : Thread) : Prop where
  alive : t.isKilled = false
  started : (c.run t.serial).Laid (c.project.blocks t.target) (some t.topBlock)
  idle : t.serial ∈ pending → t.status = .promiseWait
  rests : c.Rests said bound t

def Kept (c : Course) (said : List String) (pending : List Nat) (bound : Nat) (t : Thread) : Prop :=
  c.Alive said pending bound t ∨ t.isKilled = true ∧ ¬ c.steady

structure Holds (c : Course) (vm : Vm) : Prop where
  project : vm.project = c.project
  distinct : (vm.threads.map (·.serial)).Nodup
  early : ∀ t ∈ vm.threads, t.serial < vm.serial
  monitor : ∀ t ∈ vm.threads, t.updateMonitor = false
  told : vm.posted.filter (· ≠ "00 run") = vm.executions.map (·.message)
  recorded : ∀ x ∈ vm.executions, ∃ t, x.threads[x.index]? = some t ∧ t.serial < vm.serial ∧
    (c.run t.serial).Laid (c.project.blocks t.target) (some t.topBlock)
  spoken : ∀ serial, ∃ word ∈ (c.run serial).meaning, vm.orders serial <+: word
  once : vm.pending.Nodup
  awaited : ∀ serial ∈ vm.pending, serial < vm.serial
  ended : c.steady → ∀ serial < c.begun, (∃ t ∈ vm.threads, t.serial = serial) ∨
    vm.orders serial ∈ (c.run serial).meaning

/-- What holds between two events; `bound` is for the threads by their places. -/
structure Follows (c : Course) (bound : Nat → Nat) (vm : Vm) : Prop extends c.Holds vm where
  kept : ∀ i t, vm.threads[i]? = some t → c.Kept (vm.orders t.serial) vm.pending (bound i) t

/-- What holds between two turns of a tick, with `size` threads. -/
structure Ticks (c : Course) (size : Nat) (bound : Nat → Nat) (vm : Vm) : Prop extends c.Follows bound vm where
  size : vm.threads.length = size
  stopped : ∀ t ∈ vm.threads, t.isKilled = true → t.status = .done ∧ t.stack = []

/-- What holds during the turn of the `i`-th thread, which has `said` something. -/
structure Turn (c : Course) (size : Nat) (bound : Nat → Nat) (i : Nat) (t : Thread) (said : List String)
    (vm : Vm) : Prop extends c.Holds vm where
  size : vm.threads.length = size
  stopped : ∀ t ∈ vm.threads, t.isKilled = true → t.status = .done ∧ t.stack = []
  found : vm.threads[i]? = some t
  said : vm.orders t.serial = said
  alive : t.isKilled = false
  started : (c.run t.serial).Laid (c.project.blocks t.target) (some t.topBlock)
  idle : t.serial ∉ vm.pending
  others : ∀ j u, j ≠ i → vm.threads[j]? = some u → c.Kept (vm.orders u.serial) vm.pending (bound j) u

variable {c : Course} {size : Nat} {bound bound' : Nat → Nat} {i : Nat} {t : Thread} {said : List String} {vm vm' : Vm}

theorem Rests.mono {n m : Nat} (rests : c.Rests said n t) (le : c.steady → n ≤ m) : c.Rests said m t := by
  cases rests with
  | ended status stack whole => exact .ended status stack whole
  | on status stands continues few settled =>
    exact .on status stands continues (fun steady => (few steady).trans (le steady)) settled
  | waits status stack later rest continues unsteady => exact .waits status stack later rest continues unsteady

theorem Kept.mono {pending : List Nat} {n m : Nat} (kept : c.Kept said pending n t) (le : c.steady → n ≤ m) :
    c.Kept said pending m t := by
  rcases kept with ⟨alive, started, idle, rests⟩ | killed
  · exact .inl ⟨alive, started, idle, rests.mono le⟩
  · exact .inr killed

theorem Kept.rests {pending : List Nat} {n : Nat} (kept : c.Kept said pending n t) (steady : c.steady) :
    c.Rests said n t := by
  rcases kept with alive | ⟨_, unsteady⟩
  · exact alive.rests
  · exact absurd steady unsteady

theorem Ticks.mono (ticks : c.Ticks size bound vm) (le : c.steady → ∀ i < size, bound i ≤ bound' i) :
    c.Ticks size bound' vm := by
  refine ⟨⟨ticks.toHolds, fun i t found => (ticks.kept i t found).mono fun steady => le steady i ?_⟩, ticks.size,
    ticks.stopped⟩
  rw [← ticks.size]
  exact (List.getElem?_eq_some_iff.mp found).1

theorem Holds.congr (holds : c.Holds vm) (project : vm'.project = vm.project) (threads : vm'.threads = vm.threads)
    (posted : vm'.posted = vm.posted) (executions : vm'.executions = vm.executions) (serial : vm'.serial = vm.serial)
    (pending : vm'.pending = vm.pending) : c.Holds vm' := by
  have orders : vm'.orders = vm.orders := by
    funext serial
    rw [Vm.orders, executions, Vm.orders]
  obtain ⟨one, two, three, four, five, six, seven, eight, nine, ten⟩ := holds
  refine ⟨project.trans one, ?_, ?_, ?_, ?_, ?_, ?_, ?_, ?_, ?_⟩
  · rwa [threads]
  · rwa [threads, serial]
  · rwa [threads]
  · rwa [posted, executions]
  · rwa [executions, serial]
  · rwa [orders]
  · rwa [pending]
  · rwa [pending, serial]
  · rwa [threads, orders]

theorem Turn.congr (turn : c.Turn size bound i t said vm) (project : vm'.project = vm.project)
    (threads : vm'.threads = vm.threads) (posted : vm'.posted = vm.posted)
    (executions : vm'.executions = vm.executions) (serial : vm'.serial = vm.serial)
    (pending : vm'.pending = vm.pending) : c.Turn size bound i t said vm' := by
  have orders : vm'.orders = vm.orders := by
    funext serial
    rw [Vm.orders, executions, Vm.orders]
  refine ⟨turn.toHolds.congr project threads posted executions serial pending, ?_, ?_, ?_, ?_, turn.alive, turn.started,
    ?_, ?_⟩
  · rw [threads]
    exact turn.size
  · rw [threads]
    exact turn.stopped
  · rw [threads]
    exact turn.found
  · rw [orders]
    exact turn.said
  · rw [pending]
    exact turn.idle
  · rw [threads, orders, pending]
    exact turn.others

theorem Turn.moment (vm : Vm) (moment : Nat) (turn : c.Turn size bound i t said vm) :
    c.Turn size bound i t said { vm with moment } := turn.congr rfl rfl rfl rfl rfl rfl

theorem Turn.rest (turn : c.Turn size bound i t said vm) (rests : c.Rests said (bound i) t) :
    c.Ticks size bound vm := by
  refine ⟨⟨turn.toHolds, fun j u found => ?_⟩, turn.size, turn.stopped⟩
  by_cases here : j = i
  · rw [here, turn.found] at found
    cases found
    rw [here, turn.said]
    exact .inl ⟨turn.alive, turn.started, fun pending => absurd pending turn.idle, rests⟩
  · exact turn.others j u here found

theorem Ticks.turn (ticks : c.Ticks size bound vm) (found : vm.threads[i]? = some t) (status : t.status = .running) :
    (∀ bound', (∀ j, j ≠ i → bound' j = bound j) → c.Turn size bound' i t (vm.orders t.serial) vm) ∧
      ∃ k, Stands (c.project.blocks t.target) t.stack k ∧ c.Continues (vm.orders t.serial) t.serial k ∧
        (c.steady → stepsLeft k ≤ bound i) ∧ Settled t.stack := by
  have member := List.mem_of_getElem? found
  rcases ticks.kept i t found with ⟨alive, started, idle, rests⟩ | ⟨killed, _⟩
  · refine ⟨fun bound' others => ?_, ?_⟩
    · refine ⟨ticks.toHolds, ticks.size, ticks.stopped, found, rfl, alive, started, fun pending => ?_,
        fun j u other found' => ?_⟩
      · rw [idle pending] at status
        cases status
      · rw [others j other]
        exact ticks.kept j u found'
    · cases rests with
      | ended done _ _ =>
        rw [done] at status
        cases status
      | on _ stands continues few settled => exact ⟨_, stands, continues, few, settled⟩
      | waits waiting _ _ _ _ _ =>
        rw [waiting] at status
        cases status
  · rw [(ticks.stopped t member killed).1] at status
    cases status

end Course

end ArRobotCode.Scratch
