import ArRobotCode.Scratch.CourseTicks

namespace ArRobotCode.Scratch.Course

open Structured Trapping Vm

variable [JavaScript] [Opcodes] {c : Course} {size n m fuel : Nat} {bound bound' : Nat → Nat} {i : Nat} {t : Thread}
  {vm vm' : Vm}

section Visits

omit [JavaScript] [Opcodes] in
theorem triple_read_any {α : Type} {pre : Vm → Prop} {trap : Fault → Vm → Prop} {f : Thread → Js α}
    {post : α → Vm → Prop} (inside : ∀ vm, pre vm → i < vm.threads.length)
    (rest : ∀ t, Triple (fun vm => pre vm ∧ vm.threads[i]? = some t) (f t) post trap) :
    Triple pre (thread i >>= f) post trap := by
  intro vm start
  have found := List.getElem?_eq_getElem (inside vm start)
  rw [EStateM.run_bind, run_read found]
  exact rest _ vm ⟨start, found⟩

theorem Rests.finished {said : List String} (rests : c.Rests said n t) (finished : t.finished = true) :
    c.Rests said 0 t := by
  cases rests with
  | ended status stack whole => exact .ended status stack whole
  | on status stands continues few settled =>
    have empty : t.stack = [] := by simpa [Thread.finished, status] using finished
    refine .on status stands continues (fun _ => ?_) settled
    rw [empty] at stands
    cases stands
    exact Nat.zero_le _
  | waits status stack later rest continues unsteady => exact .waits status stack later rest continues unsteady

theorem Ticks.lower (ticks : c.Ticks size bound vm) (found : vm.threads[i]? = some t) (finished : t.finished = true)
    (others : ∀ j, j ≠ i → bound' j = bound j) : c.Ticks size bound' vm := by
  refine ⟨⟨ticks.toHolds, fun j u found' => ?_⟩, ticks.size, ticks.stopped⟩
  by_cases here : j = i
  · rw [here, found] at found'
    cases found'
    rcases ticks.kept i t found with ⟨alive, started, idle, rests⟩ | killed
    · exact .inl ⟨alive, started, idle, (rests.finished finished).mono fun _ => Nat.zero_le _⟩
    · exact .inr killed
  · rw [others j here]
    exact ticks.kept j u found'

theorem Halts.mono {e : Fault} (halts : c.Halts size bound e vm) : c.Halts size bound' e vm :=
  ⟨halts.1.mono fun steady => absurd steady halts.2, halts.2⟩

theorem triple_visit (inside : i < size) (enough : c.steady → bound i ≤ fuel ∧ 1 ≤ fuel) :
    Triple (c.Ticks size bound) (visit fuel i) (fun _ => c.Ticks size (Function.update bound i (bound i - 1)))
      (c.Halts size (Function.update bound i (bound i - 1))) := by
  have within : ∀ bound vm, c.Ticks size bound vm → i < vm.threads.length := fun bound vm ticks => ticks.size ▸ inside
  have others : ∀ j, j ≠ i → Function.update bound i (bound i - 1) j = bound j := fun j other =>
    Function.update_of_ne other _ _
  apply triple_read_any (within bound)
  intro t
  split
  · rename_i finished
    exact Triple.pure fun vm both => both.1.lower both.2 finished others
  · rename_i unfinished
    have stepped : Triple (fun vm => c.Ticks size bound vm ∧ vm.threads[i]? = some t) (stepReady fuel i t.status)
        (fun _ => c.Ticks size (Function.update bound i (bound i - 1)))
        (c.Halts size (Function.update bound i (bound i - 1))) := by
      unfold stepReady
      split
      · rename_i ready
        intro vm both
        obtain ⟨ticks, found⟩ := both
        have status : t.status = .running := by
          rcases ticks.kept i t found with ⟨_, _, _, rests⟩ | ⟨killed, _⟩
          · cases rests with
            | ended done _ _ => simp [Thread.finished, done] at unfinished
            | on running _ _ _ _ => exact running
            | waits waiting _ _ _ _ _ => simp [waiting] at ready
          · simp [Thread.finished, (ticks.stopped t (List.mem_of_getElem? found) killed).1] at unfinished
        obtain ⟨turn, k, stands, continues, few, settled⟩ := ticks.turn found status
        refine triple_stepThread (n := bound i - 1) fuel status stands settled continues (fun steady => ?_)
          (fun steady => ?_) (by simp) vm (turn _ others)
        · have := few steady
          omega
        · have := enough steady
          omega
      · rename_i ready
        refine Triple.pure fun vm both => ?_
        obtain ⟨ticks, found⟩ := both
        refine ⟨⟨ticks.toHolds, fun j u found' => ?_⟩, ticks.size, ticks.stopped⟩
        by_cases here : j = i
        · rw [here, found] at found'
          cases found'
          rcases ticks.kept i t found with ⟨alive, started, idle, rests⟩ | killed
          · cases rests with
            | ended done _ _ => simp [Thread.finished, done] at unfinished
            | on running _ _ _ _ => simp [running] at ready
            | waits status stack later rest continues unsteady =>
              exact .inl ⟨alive, started, idle, .waits status stack later rest continues unsteady⟩
          · exact .inr killed
        · rw [others j here]
          exact ticks.kept j u found'
    apply stepped.bind
    intro _
    apply triple_read_any (within _)
    intro after
    exact Triple.pure fun vm both => both.1

theorem triple_visitFrom (inside : i + n ≤ size) (enough : c.steady → ∀ j, bound j ≤ fuel ∧ 1 ≤ fuel) :
    Triple (c.Ticks size bound) (visitFrom fuel i n)
      (fun _ => c.Ticks size fun j => if i ≤ j ∧ j < i + n then bound j - 1 else bound j)
      (c.Halts size fun j => if i ≤ j ∧ j < i + n then bound j - 1 else bound j) := by
  induction n generalizing i bound with
  | zero =>
    refine Triple.pure fun vm ticks => ticks.mono fun _ j _ => ?_
    rw [if_neg (by omega)]
  | succ n ih =>
    have here := triple_visit (c := c) (i := i) (show i < size by omega) fun steady => enough steady i
    unfold visitFrom
    apply (here.weaken fun _ _ halts => halts.mono).bind
    intro first
    have later : Triple (c.Ticks size (Function.update bound i (bound i - 1))) (visitFrom fuel (i + 1) n) _ _ :=
      ih (by omega) fun steady j => by
      have := enough steady j
      by_cases same : j = i
      · subst same
        rw [Function.update_self]
        omega
      · rwa [Function.update_of_ne same]
    apply (later.weaken fun _ _ halts => halts.mono).bind
    intro others
    refine Triple.pure fun vm ticks => ticks.mono fun _ j _ => ?_
    by_cases same : j = i
    · subst same
      rw [if_neg (by omega), if_pos (by omega), Function.update_self]
    · rw [Function.update_of_ne same]
      split <;> split <;> omega

end Visits

section Passes

omit [JavaScript] in
theorem eq_done_of_steps {p : Program} {k : List Program} (calm : ∀ q ∈ p :: k, q.Steady)
    (none : stepsLeft (p :: k) = 0) : p = .done := by
  rw [stepsLeft_cons, Nat.add_eq_zero_iff] at none
  by_contra more
  exact (steps_pos (calm p List.mem_cons_self) more).ne' none.1

omit [JavaScript] in
theorem nil_mem_remaining {k : List Program} (calm : ∀ p ∈ k, p.Steady) (none : stepsLeft k = 0) :
    [] ∈ remaining k := by
  induction k with
  | nil => exact Language.nil_mem_one
  | cons p k ih =>
    rw [eq_done_of_steps calm none, remaining_cons, Program.meaning_done, one_mul]
    rw [stepsLeft_cons, Nat.add_eq_zero_iff] at none
    exact ih (fun q member => calm q (List.mem_cons_of_mem _ member)) none.2

theorem Rests.whole {said : List String} (rests : c.Rests said 0 t) (steady : c.steady) :
    said ∈ (c.run t.serial).meaning := by
  cases rests with
  | ended _ _ whole => exact whole steady
  | on _ _ continues few _ =>
    have silent := nil_mem_remaining (continues.calm steady) (Nat.le_zero.mp (few steady))
    simpa using continues.words [] silent
  | waits _ _ _ _ _ unsteady => exact absurd steady unsteady

theorem Follows.filter {keep : Thread → Bool} (follows : c.Follows (fun _ => m) vm)
    (whole : c.steady → ∀ t ∈ vm.threads, keep t = false → vm.orders t.serial ∈ (c.run t.serial).meaning) :
    c.Follows (fun _ => m) { vm with threads := vm.threads.filter keep } := by
  have inside : ∀ t ∈ vm.threads.filter keep, t ∈ vm.threads := fun t member => (List.mem_filter.mp member).1
  refine ⟨⟨follows.project, ?_, fun t member => follows.early t (inside t member),
    fun t member => follows.monitor t (inside t member), follows.told, follows.recorded, follows.spoken, follows.once,
    follows.awaited, fun steady serial begun => ?_⟩, fun j t found => ?_⟩
  · exact follows.distinct.sublist (List.filter_sublist.map _)
  · rcases follows.ended steady serial begun with ⟨t, member, rfl⟩ | ended
    · cases kept : keep t with
      | true => exact .inl ⟨t, List.mem_filter.mpr ⟨member, kept⟩, rfl⟩
      | false => exact .inr (whole steady t member kept)
    · exact .inr ended
  · obtain ⟨i, old⟩ := List.mem_iff_getElem?.mp (inside t (List.mem_of_getElem? found))
    exact follows.kept i t old

def Between (c : Course) (m : Nat) (vm : Vm) : Prop := ∃ size, c.Ticks size (fun _ => m) vm

def Breaks (c : Course) (_ : Fault) (vm : Vm) : Prop := c.Between 0 vm ∧ ¬ c.steady

theorem Between.mono (between : c.Between n vm) (le : c.steady → n ≤ m) : c.Between m vm := by
  obtain ⟨size, ticks⟩ := between
  exact ⟨size, ticks.mono fun steady _ _ => le steady⟩

theorem Between.removeStopped (between : c.Between m vm) (stoppedThread : Bool) :
    c.Between m (removeStopped stoppedThread vm) := by
  unfold Vm.removeStopped
  split
  · obtain ⟨size, ticks⟩ := between
    refine ⟨_, ticks.toFollows.filter fun steady t member ended => ?_, rfl, fun t member => ?_⟩
    · obtain ⟨i, found⟩ := List.mem_iff_getElem?.mp member
      have rests := (ticks.kept i t found).rests steady
      exact (rests.finished (by simpa using ended)).whole steady
    · exact ticks.stopped t (List.mem_filter.mp member).1
  · exact between

theorem triple_round {budget : Nat} (enough : c.steady → m ≤ fuel ∧ 1 ≤ fuel)
    (rest : ∀ active, Triple (c.Between (m - 1)) (stepThreads fuel active budget) (fun _ => c.Between n) c.Breaks) :
    Triple (c.Ticks size fun _ => m)
      (do
        let (active, stoppedThread) ← visitFrom fuel 0 size
        modify (removeStopped stoppedThread)
        stepThreads fuel active budget)
      (fun _ => c.Between n) c.Breaks := by
  have visits : Triple (c.Ticks size fun _ => m) (visitFrom fuel 0 size) _ _ :=
    triple_visitFrom (Nat.zero_add size).le fun steady _ => enough steady
  apply (visits.weaken fun _ vm halts => ?_).bind
  · intro outcome
    have removed : Triple (c.Ticks size fun j => if 0 ≤ j ∧ j < 0 + size then m - 1 else m)
        (modify (removeStopped outcome.2) : Js Unit) (fun _ => c.Between (m - 1)) c.Breaks := by
      apply Triple.modify
      intro vm ticks
      apply Between.removeStopped
      refine ⟨size, ticks.mono fun _ j inside => ?_⟩
      rw [if_pos (by omega)]
    exact removed.bind fun _ => rest outcome.1
  · exact ⟨⟨size, halts.1.mono fun steady => absurd steady halts.2⟩, halts.2⟩

theorem triple_stepThreads {active : Bool} {budget : Nat} (enough : c.steady → m ≤ fuel ∧ 1 ≤ fuel) :
    Triple (c.Between m) (stepThreads fuel active budget) (fun _ => c.Between m) c.Breaks := by
  induction budget generalizing active m with
  | zero => exact Triple.pure fun vm between => between
  | succ budget ih =>
    apply Triple.read_bind
    intro vm between
    obtain ⟨size, ticks⟩ := between
    split
    · rw [ticks.size]
      apply (triple_round enough fun active => ?_).strengthen fun vm' same => same ▸ ticks
      apply (ih fun steady => ?_).conclude fun _ vm between => between.mono fun _ => Nat.sub_le m 1
      have := enough steady
      omega
    · exact Triple.pure fun vm' same => same ▸ ⟨size, ticks⟩

theorem triple_stepThreads_first {budget : Nat} (enough : c.steady → m ≤ fuel ∧ 1 ≤ fuel) :
    Triple (fun vm => c.Between m vm ∧ vm.redrawRequested = false) (stepThreads fuel true (budget + 1))
      (fun _ => c.Between (m - 1)) c.Breaks := by
  apply Triple.read_bind
  intro vm start
  obtain ⟨⟨size, ticks⟩, redraws⟩ := start
  split
  · rw [ticks.size]
    apply (triple_round enough fun active => ?_).strengthen fun vm' same => same ▸ ticks
    apply triple_stepThreads
    intro steady
    have := enough steady
    omega
  · rename_i idle
    have none : vm.threads = [] := by simpa [redraws] using idle
    have empty : size = 0 := by rw [← ticks.size, none, List.length_nil]
    have lower : c.Between (m - 1) vm := ⟨size, ticks.mono fun _ i inside => absurd inside (by omega)⟩
    exact Triple.pure fun vm' same => same ▸ lower

end Passes

end ArRobotCode.Scratch.Course
