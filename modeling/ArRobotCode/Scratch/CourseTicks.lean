import ArRobotCode.Scratch.CourseTurns

namespace ArRobotCode.Scratch.Course

open Structured Trapping Vm

variable [JavaScript] [Opcodes] {c : Course} {size n : Nat} {bound : Nat → Nat} {i : Nat} {t : Thread}
  {said : List String} {trap : Fault → Vm → Prop} {k : List Program} {vm : Vm}

section Unwinding

/-- The thread after empty entries have been popped: it has a block to go on with, or rests. -/
inductive Unwound (c : Course) (size : Nat) (bound : Nat → Nat) (i : Nat) (said : List String) (k : List Program) :
    Bool → Vm → Prop
  | onward {t : Thread} {k' : List Program} {vm : Vm} (turn : c.Turn size bound i t said vm)
      (status : t.status = .running) (top : t.peekStack.isSome) (stands : Stands (c.project.blocks t.target) t.stack k')
      (continues : c.Continues said t.serial k') (few : stepsLeft k' ≤ stepsLeft k) :
      Unwound c size bound i said k true vm
  | rests {t : Thread} {vm : Vm} (turn : c.Turn size bound i t said vm) (rests : c.Rests said (stepsLeft k) t) :
      Unwound c size bound i said k false vm

omit [JavaScript] [Opcodes] in
theorem triple_givesWay_plain {pre : Vm → Prop} {frame : Frame} {α : Type} {f : Bool → Js α} {post : α → Vm → Prop}
    (plain : frame.warpMode = false) (rest : Triple pre (f true) post trap) :
    Triple pre (givesWay frame >>= f) post trap := by
  intro vm start
  rw [EStateM.run_bind, run_givesWay plain]
  exact rest vm start

theorem Unwound.mono {k' : List Program} {goesOn : Bool} (unwound : c.Unwound size bound i said k' goesOn vm)
    (le : stepsLeft k' ≤ stepsLeft k) : c.Unwound size bound i said k goesOn vm := by
  cases unwound with
  | onward turn status top stands continues few => exact .onward turn status top stands continues (few.trans le)
  | rests turn rests => exact .rests turn (rests.mono fun _ => le)

theorem triple_unwind (depth : Nat) (deep : t.stack.length < depth) (status : t.status = .running)
    (stands : Stands (c.project.blocks t.target) t.stack k) (continues : c.Continues said t.serial k) :
    Triple (c.Turn size bound i t said) (unwind i depth) (c.Unwound size bound i said k) trap := by
  induction depth generalizing t k with
  | zero => omega
  | succ depth ih =>
    unfold unwind
    apply triple_read fun vm turn => turn.found
    split
    · rename_i top
      exact Triple.pure fun vm turn => .onward turn status top stands continues le_rfl
    · rename_i top
      have same := Thread.same_popStack t
      apply (triple_update same).bind
      intro _
      apply triple_read fun vm turn => turn.found
      cases stack : t.stack with
      | nil =>
        rw [stack] at stands
        cases stands
        have empty : t.popStack.stack = [] := by rw [Thread.popStack, stack]; rfl
        have whole : said ∈ (c.run t.serial).meaning := by
          simpa using continues.words [] Language.nil_mem_one
        rw [empty]
        dsimp only
        apply (triple_update (Thread.same_setStatus .done _)).bind
        intro _
        exact Triple.pure fun vm turn => .rests turn (.ended rfl empty fun _ => whole)
      | cons level below =>
        obtain ⟨start, frame⟩ := level
        have none : start = none := by
          rw [Thread.peekStack, stack] at top
          simpa using top
        subst none
        have popped : t.popStack.stack = below := by rw [Thread.popStack, stack]; rfl
        rw [stack] at stands
        cases stands with
        | @on _ _ _ k here later =>
          cases here with
          | again looping => cases looping
          | fresh laid =>
            cases laid.eq_done
            have onward : c.Continues said t.popStack.serial k := continues.silent .done fun steady p member =>
              continues.calm steady p (List.mem_cons_of_mem _ member)
            have few : stepsLeft k ≤ stepsLeft (.done :: k) := by
              rw [stepsLeft_cons]
              exact Nat.le_add_left _ _
            rw [popped]
            cases below with
            | nil =>
              cases later
              have whole : said ∈ (c.run t.popStack.serial).meaning := by
                simpa using onward.words [] Language.nil_mem_one
              dsimp only
              apply (triple_update (Thread.same_setStatus .done _)).bind
              intro _
              exact Triple.pure fun vm turn => .rests turn (.ended rfl popped fun _ => whole)
            | cons level below =>
              dsimp only
              split
              · rename_i isLoop
                have again : Stands (c.project.blocks t.popStack.target) t.popStack.stack k := by
                  rw [popped]
                  exact stands_below later isLoop
                have plain : level.frame.warpMode = false := by
                  cases later with
                  | cons awaits _ => exact awaits.plain
                apply triple_givesWay_plain plain
                have settled : Settled t.popStack.stack := by
                  cases later with
                  | cons awaits _ =>
                    cases awaits with
                    | loop looping =>
                      cases looping
                      simp [Settled, popped]
                    | branch _ _ _ => cases isLoop
                exact Triple.pure fun vm turn => .rests turn (.on status again onward (fun _ => few) settled)
              · rename_i isLoop
                obtain ⟨id, rfl, next⟩ := stands_next later (by simpa using isLoop)
                have moved : (t.popStack.goToNextBlock (c.project.blocks t.target)).stack =
                    ⟨(c.project.blocks t.target).getNextBlock id, {}⟩ :: below := by
                  simp [Thread.goToNextBlock, Thread.reuseStackForNextBlock, Thread.peekStack, popped, Frame.reuse]
                have own := Thread.same_goToNextBlock (c.project.blocks t.target) t.popStack
                have running : (t.popStack.goToNextBlock (c.project.blocks t.target)).status = .running := by
                  simp only [Thread.goToNextBlock, Thread.reuseStackForNextBlock, popped]
                  exact status
                apply triple_blocks fun vm turn => turn.project
                apply (triple_update own).bind
                intro _
                apply (ih ?_ running ?_ ?_).conclude fun goesOn vm unwound => unwound.mono few
                · rw [moved]
                  rw [stack] at deep
                  exact Nat.lt_of_succ_lt_succ deep
                · rw [own.target, moved]
                  exact next
                · rw [own.serial]
                  exact onward

end Unwinding

section Turns

omit [JavaScript] [Opcodes] in
theorem run_update_same {f : Thread → Thread} (found : vm.threads[i]? = some t) (same : f t = t) :
    (updateThread i f).run vm = .ok () vm := by
  have threads : vm.threads.modify i f = vm.threads := by
    apply List.ext_getElem?
    intro j
    rw [List.getElem?_modify]
    by_cases here : i = j
    · subst here
      simp [found, same]
    · simp [here]
  change EStateM.Result.ok () { vm with threads := vm.threads.modify i f } = _
  rw [threads]

omit [JavaScript] [Opcodes] in
theorem run_read (found : vm.threads[i]? = some t) : (thread i).run vm = .ok t vm := by
  unfold thread
  rw [EStateM.run_bind, EStateM.run_get]
  dsimp only
  rw [found]
  rfl

omit [JavaScript] [Opcodes] in
theorem run_unwind_over (found : vm.threads[i]? = some t) (status : t.status = .done) (stack : t.stack = [])
    (depth : Nat) : (unwind i (depth + 1)).run vm = .ok false vm := by
  have pops : t.popStack = t := by
    cases t
    cases stack
    rfl
  have ends : t.setStatus .done = t := by
    cases t
    cases status
    rfl
  unfold unwind
  rw [EStateM.run_bind, run_read found]
  dsimp only
  rw [if_neg (by simp [Thread.peekStack, stack]), EStateM.run_bind, run_update_same found pops]
  dsimp only
  rw [EStateM.run_bind, run_read found]
  dsimp only
  rw [stack]
  dsimp only
  rw [EStateM.run_bind, run_update_same found ends]
  rfl

omit [JavaScript] in
theorem steps_pos {p : Program} (calm : p.Steady) (more : p ≠ .done) : 0 < p.steps := by
  cases p with
  | done => exact absurd rfl more
  | emit _ _ _ | choose _ _ _ _ | pass _ _ => exact Nat.succ_pos _
  | loop id times body next =>
    cases times with
    | none => simpa using calm.1
    | some times => exact Nat.succ_pos _

theorem stepsLeft_pos {blocks : Blocks} (stands : Stands blocks t.stack k) (top : t.peekStack.isSome)
    (calm : ∀ p ∈ k, p.Steady) : 0 < stepsLeft k := by
  unfold Thread.peekStack at top
  cases stack : t.stack with
  | nil => simp [stack] at top
  | cons level below =>
    rw [stack] at stands top
    cases stands with
    | @on _ _ p k here later =>
      have more : p ≠ .done := by
        intro none
        subst none
        cases here with
        | fresh laid =>
          rw [show _ = none from laid] at top
          cases top
        | again looping => cases looping
      rw [stepsLeft_cons]
      exact Nat.add_pos_left (steps_pos (calm p List.mem_cons_self) more) _

omit [JavaScript] [Opcodes] in
theorem settled_of_top (top : t.peekStack.isSome) : Settled t.stack := by
  intro level member none
  unfold Thread.peekStack at top
  cases stack : t.stack with
  | nil => simp [stack] at member
  | cons level' below =>
    simp only [stack, List.head?_cons, Option.mem_some_iff] at member top
    rw [member, none] at top
    cases top

omit [JavaScript] [Opcodes] in
theorem switchFrom_length (id : BlockId) (blocks : Blocks) (t : Thread) :
    (t.switchFrom id blocks).stack.length = t.stack.length := by
  unfold Thread.switchFrom Thread.goToNextBlock Thread.reuseStackForNextBlock
  split
  · cases stack : t.stack <;> simp [stack]
  · rfl

omit [JavaScript] [Opcodes] in
theorem switchFrom_status (id : BlockId) (blocks : Blocks) (t : Thread) :
    (t.switchFrom id blocks).status = t.status := by
  unfold Thread.switchFrom Thread.goToNextBlock Thread.reuseStackForNextBlock
  split
  · cases t.stack <;> rfl
  · rfl

theorem triple_executeBlocks (fuel : Nat) (status : t.status = .running) (top : t.peekStack.isSome)
    (stands : Stands (c.project.blocks t.target) t.stack k) (continues : c.Continues said t.serial k)
    (few : c.steady → stepsLeft k ≤ n + 1) (enough : c.steady → n + 1 ≤ fuel) (le : n ≤ bound i) :
    Triple (c.Turn size bound i t said) (executeBlocks i fuel) (fun _ => c.Ticks size bound) (c.Halts size bound) := by
  induction fuel generalizing t said k n with
  | zero =>
    have unsteady : ¬ c.steady := fun steady => by simpa using enough steady
    refine Triple.throw fun vm turn => ⟨turn.rest (.on status stands continues ?_ (settled_of_top top)), unsteady⟩
    exact fun steady => absurd steady unsteady
  | succ fuel ih =>
    obtain ⟨id, peek⟩ := Option.isSome_iff_exists.mp top
    unfold executeBlocks
    apply triple_read fun vm turn => turn.found
    rw [peek]
    dsimp only
    apply (triple_execute (n := n) status peek stands continues few).bind
    intro _
    apply triple_outcome
    · intro t' ended stack vm both
      obtain ⟨ticks, found⟩ := both
      have switches : t'.switchFrom id (vm.project.blocks t'.target) = t' := by
        rw [Thread.switchFrom, if_neg (by simp [Thread.peekStack, stack])]
      rw [EStateM.run_bind, run_read found]
      dsimp only
      rw [ended]
      dsimp only
      rw [EStateM.run_bind, run_blocksOf]
      dsimp only
      rw [EStateM.run_bind, run_update_same found switches]
      dsimp only
      rw [EStateM.run_bind, run_unwind_over found ended stack]
      exact ticks
    · intro t' waiting
      apply triple_read fun vm both => both.2
      rw [waiting]
      exact Triple.pure fun vm both => both.1
    · intro t' said' k' yields top' stands' continues' unsteady
      apply triple_read fun vm turn => turn.found
      rw [yields]
      apply (triple_update (Thread.same_setStatus .running t')).bind
      intro _
      apply triple_givesWay_plain stands.plain
      refine Triple.pure fun vm turn => turn.rest (.on rfl stands' continues' ?_ (settled_of_top (t := t') top'))
      exact fun steady => absurd steady unsteady
    · intro t' said' k' running stands' continues' fewer
      have own := Thread.same_switchFrom id (c.project.blocks t'.target) t'
      apply triple_read fun vm turn => turn.found
      rw [running]
      apply triple_blocks fun vm turn => turn.project
      apply (triple_update own).bind
      intro _
      have unwinds : Triple (c.Turn size bound i (t'.switchFrom id (c.project.blocks t'.target)) said')
          (unwind i (t'.stack.length + 1)) (c.Unwound size bound i said' k') (c.Halts size bound) := by
        apply triple_unwind
        · rw [switchFrom_length]
          exact Nat.lt_succ_self _
        · rw [switchFrom_status]
          exact running
        · rw [own.target]
          exact stands'
        · rw [own.serial]
          exact continues'
      apply unwinds.bind
      intro goesOn vm unwound
      cases unwound with
      | rests turn rests => exact turn.rest (rests.mono fun steady => (fewer steady).trans le)
      | onward turn status'' top'' stands'' continues'' few'' =>
        refine ih (n := n - 1) status'' top'' stands'' continues'' (fun steady => ?_) (fun steady => ?_)
          (by omega) vm turn
        · exact (few''.trans (fewer steady)).trans (by omega)
        · have positive := stepsLeft_pos stands'' top'' (continues''.calm steady)
          have bounded := few''.trans (fewer steady)
          have plenty := enough steady
          omega

theorem triple_executeBlocks_nil (fuel : Nat) (status : t.status = .running) (stack : t.stack = [])
    (continues : c.Continues said t.serial []) (enough : c.steady → 1 ≤ fuel) :
    Triple (c.Turn size bound i t said) (executeBlocks i fuel) (fun _ => c.Ticks size bound) (c.Halts size bound) := by
  have rests : ∀ vm, c.Turn size bound i t said vm → c.Ticks size bound vm := by
    intro vm turn
    refine turn.rest (.on status (stack ▸ .ended) continues (fun _ => Nat.zero_le _) ?_)
    simp [Settled, stack]
  cases fuel with
  | zero => exact Triple.throw fun vm turn => ⟨rests vm turn, fun steady => by simpa using enough steady⟩
  | succ fuel =>
    have none : t.peekStack = none := by rw [Thread.peekStack, stack]
    unfold executeBlocks
    apply triple_read fun vm turn => turn.found
    rw [none]
    exact Triple.pure rests

theorem triple_stepThread (fuel : Nat) (status : t.status = .running)
    (stands : Stands (c.project.blocks t.target) t.stack k) (settled : Settled t.stack)
    (continues : c.Continues said t.serial k) (few : c.steady → stepsLeft k ≤ n + 1)
    (enough : c.steady → n + 1 ≤ fuel) (le : n ≤ bound i) :
    Triple (c.Turn size bound i t said) (stepThread fuel i) (fun _ => c.Ticks size bound) (c.Halts size bound) := by
  have same := Thread.same_popNull t
  have running : t.popNull.status = .running := by
    unfold Thread.popNull
    split <;> exact status
  have plenty : c.steady → 1 ≤ fuel := fun steady => (Nat.le_add_left 1 n).trans (enough steady)
  unfold stepThread
  apply (triple_update same).bind
  intro _
  cases top : t.peekStack with
  | some id =>
    have stays : t.popNull = t := by rw [Thread.popNull, if_neg (by simp [top])]
    rw [stays]
    exact triple_executeBlocks fuel status (by simp [top]) stands continues few enough le
  | none =>
    have pops : t.popNull = t.popStack := by rw [Thread.popNull, if_pos top]
    rw [pops] at same running ⊢
    cases stack : t.stack with
    | nil =>
      rw [stack] at stands
      cases stands
      exact triple_executeBlocks_nil fuel running (by rw [Thread.popStack, stack]; rfl) continues plenty
    | cons level below =>
      obtain ⟨start, frame⟩ := level
      have empty : start = none := by simpa [Thread.peekStack, stack] using top
      subst empty
      rw [stack] at stands settled
      have popped : t.popStack.stack = below := by rw [Thread.popStack, stack]; rfl
      cases stands with
      | @on _ _ p k here later =>
        cases here with
        | again looping => cases looping
        | fresh laid =>
          cases laid.eq_done
          have onward : c.Continues said t.popStack.serial k := continues.silent .done fun steady p member =>
            continues.calm steady p (List.mem_cons_of_mem _ member)
          cases below with
          | nil =>
            cases later
            exact triple_executeBlocks_nil fuel running popped onward plenty
          | cons parent rest =>
            have isLoop := settled _ rfl rfl parent rfl
            have again : Stands (c.project.blocks t.popStack.target) t.popStack.stack k := by
              rw [popped]
              exact stands_below later isLoop
            have loops : t.popStack.peekStack.isSome := by
              cases later with
              | cons awaits _ =>
                cases awaits with
                | loop looping =>
                  cases looping
                  simp [Thread.peekStack, popped]
                | branch _ _ _ => cases isLoop
            refine triple_executeBlocks fuel running loops again onward (fun steady => ?_) enough le
            have whole := few steady
            rwa [stepsLeft_cons, Program.steps, Nat.zero_add] at whole

end Turns

end ArRobotCode.Scratch.Course
