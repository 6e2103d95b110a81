import Mathlib.Data.List.TakeWhile
import ArRobotCode.Scratch.CourseBlocks

namespace ArRobotCode.Scratch.Course

open Structured Trapping Vm

section Stops

structure StopsSome (threads threads' : List Thread) : Prop where
  length : threads'.length = threads.length
  each : ∀ (j : Nat) (u' : Thread), threads'[j]? = some u' → ∃ u, threads[j]? = some u ∧ (u' = u ∨ u' = u.stop)

variable {threads threads' : List Thread}

theorem stopsSome_map (threads : List Thread) : StopsSome threads (threads.map .stop) := by
  refine ⟨List.length_map _, fun j u' found => ?_⟩
  rw [List.getElem?_map, Option.map_eq_some_iff] at found
  obtain ⟨u, found, same⟩ := found
  exact ⟨u, found, .inr same.symm⟩

theorem stopsSome_mapIdx (threads : List Thread) (stops : Nat → Thread → Prop) [∀ i t, Decidable (stops i t)] :
    StopsSome threads (threads.mapIdx fun i t => if stops i t then t.stop else t) := by
  refine ⟨List.length_mapIdx, fun j u' found => ?_⟩
  rw [List.getElem?_mapIdx, Option.map_eq_some_iff] at found
  obtain ⟨u, found, same⟩ := found
  refine ⟨u, found, ?_⟩
  split at same
  · exact .inr same.symm
  · exact .inl same.symm

theorem stopsSome_modify (threads : List Thread) (i : Nat) : StopsSome threads (threads.modify i .stop) := by
  refine ⟨List.length_modify .., fun j u' found => ?_⟩
  rw [List.getElem?_modify] at found
  cases old : threads[j]? with
  | none => simp [old] at found
  | some u =>
    simp only [old, Option.map_eq_map, Option.map_some, Option.some.injEq] at found
    refine ⟨u, rfl, ?_⟩
    split at found
    · exact .inr found.symm
    · exact .inl found.symm

theorem StopsSome.serials (stops : StopsSome threads threads') :
    threads'.map (·.serial) = threads.map (·.serial) := by
  apply List.ext_getElem?
  intro j
  rw [List.getElem?_map, List.getElem?_map]
  cases found : threads'[j]? with
  | none =>
    have short := List.getElem?_eq_none_iff.mp found
    rw [stops.length] at short
    rw [List.getElem?_eq_none short]
  | some u' =>
    obtain ⟨u, old, rfl | rfl⟩ := stops.each j u' found <;> simp [old, Thread.stop, Thread.retire]

theorem stopped_stops (stopped : ∀ t ∈ threads, t.isKilled = true → t.status = .done ∧ t.stack = [])
    (stops : StopsSome threads threads') :
    ∀ t ∈ threads', t.isKilled = true → t.status = .done ∧ t.stack = [] := by
  intro u' member killed
  obtain ⟨j, found⟩ := List.getElem?_of_mem member
  obtain ⟨u, old, rfl | rfl⟩ := stops.each j u' found
  · exact stopped u' (List.mem_of_getElem? old) killed
  · exact ⟨rfl, rfl⟩

variable [JavaScript] [Opcodes] {c : Course} {size : Nat} {bound : Nat → Nat} {i : Nat} {t : Thread}
  {said : List String} {vm : Vm}

theorem Holds.stops (holds : c.Holds vm) (unsteady : ¬ c.steady) (stops : StopsSome vm.threads threads') :
    c.Holds { vm with threads := threads' } := by
  refine ⟨holds.project, ?_, fun u' member => ?_, fun u' member => ?_, holds.told, holds.recorded, holds.spoken,
    holds.once, holds.awaited, fun steady => absurd steady unsteady⟩
  · change (threads'.map _).Nodup
    rw [stops.serials]
    exact holds.distinct
  · have listed : u'.serial ∈ vm.threads.map (·.serial) := by
      rw [← stops.serials]
      exact List.mem_map_of_mem member
    obtain ⟨u, old, same⟩ := List.mem_map.mp listed
    rw [← same]
    exact holds.early u old
  · obtain ⟨j, found⟩ := List.getElem?_of_mem member
    obtain ⟨u, old, either⟩ := stops.each j u' found
    have before := holds.monitor u (List.mem_of_getElem? old)
    rcases either with same | same
    · rwa [same]
    · rw [same]
      exact before

theorem Kept.stops {pending : List Nat} {n : Nat} {u u' : Thread} (kept : c.Kept said pending n u)
    (unsteady : ¬ c.steady) (stops : u' = u ∨ u' = u.stop) : c.Kept said pending n u' := by
  rcases stops with rfl | rfl
  · exact kept
  · exact .inr ⟨rfl, unsteady⟩

theorem Follows.stops (follows : c.Follows bound vm) (unsteady : ¬ c.steady) (stops : StopsSome vm.threads threads') :
    c.Follows bound { vm with threads := threads' } := by
  refine ⟨follows.toHolds.stops unsteady stops, fun j u' found => ?_⟩
  obtain ⟨u, old, either⟩ := stops.each j u' found
  have serial : u'.serial = u.serial := by
    rcases either with rfl | rfl <;> rfl
  rw [serial]
  exact (follows.kept j u old).stops unsteady either

theorem Turn.stops (turn : c.Turn size bound i t said vm) (unsteady : ¬ c.steady)
    (stops : StopsSome vm.threads threads') (found : threads'[i]? = some t) :
    c.Turn size bound i t said { vm with threads := threads' } := by
  refine ⟨turn.toHolds.stops unsteady stops, stops.length.trans turn.size, stopped_stops turn.stopped stops, found,
    turn.said, turn.alive, turn.started, turn.idle, fun j u' other found' => ?_⟩
  obtain ⟨u, old, either⟩ := stops.each j u' found'
  have serial : u'.serial = u.serial := by
    rcases either with rfl | rfl <;> rfl
  rw [serial]
  exact (turn.others j u other old).stops unsteady either

theorem Turn.stopAll (turn : c.Turn size bound i t said vm) (unsteady : ¬ c.steady) :
    c.Ticks size bound { vm with threads := vm.threads.map .stop } := by
  refine ⟨⟨turn.toHolds.stops unsteady (stopsSome_map _), fun j u' found => .inr ⟨?_, unsteady⟩⟩, ?_,
    stopped_stops turn.stopped (stopsSome_map _)⟩
  · change (vm.threads.map Thread.stop)[j]? = some u' at found
    rw [List.getElem?_map, Option.map_eq_some_iff] at found
    obtain ⟨u, _, rfl⟩ := found
    rfl
  · exact (List.length_map _).trans turn.size

end Stops

variable [JavaScript] [Opcodes] {c : Course} {size n : Nat} {bound : Nat → Nat} {i : Nat} {t : Thread}
  {said : List String} {id : BlockId} {b : Block} {below : List Level} {next p : Program} {k : List Program}

section Passing

theorem not_call {blocks : Blocks} {level : Level} (awaits : Awaits blocks level p) :
    (level.block.any fun id => !Thread.isCall blocks id) = true := by
  cases awaits with
  | loop looping =>
    cases looping with
    | @loop id b _ _ _ _ _ _ loops _ _ _ _ _ =>
      unfold Block.times at loops
      split at loops
      case h_1 opcode | h_2 opcode | h_3 opcode => simp [Thread.isCall, opcode]
      case h_4 => cases loops
  | branch _ opcode _ => rcases opcode with opcode | opcode <;> simp [Thread.isCall, opcode]

theorem stopThisScript_eq {blocks : Blocks} (opcode : Opcodes.opcode id = .controlStop)
    (stack : t.stack = ⟨some id, {}⟩ :: below) (later : List.Forall₂ (Awaits blocks) below k) :
    (t.stopThisScript blocks).stack = [] ∧ (t.stopThisScript blocks).status = .done := by
  have all : ∀ level ∈ t.stack, (level.block.any fun id => !Thread.isCall blocks id) = true := by
    rw [stack]
    simp only [List.forall_mem_cons]
    refine ⟨by simp [Thread.isCall, opcode], fun level member => ?_⟩
    clear stack
    induction later with
    | nil => cases member
    | cons awaits _ ih =>
      rcases List.mem_cons.mp member with rfl | inside
      · exact not_call awaits
      · exact ih inside
  have none := List.dropWhile_eq_nil_iff.mpr all
  unfold Thread.stopThisScript
  rw [none]
  exact ⟨rfl, rfl⟩

theorem Turn.wait {vm : Vm} (turn : c.Turn size bound i t said vm) (status : t.status = .promiseWait)
    (rests : c.Rests said (bound i) t) : c.Ticks size bound { vm with pending := t.serial :: vm.pending } := by
  refine ⟨⟨⟨turn.project, turn.distinct, turn.early, turn.monitor, turn.told, turn.recorded, turn.spoken,
    List.nodup_cons.mpr ⟨turn.idle, turn.once⟩, ?_, turn.ended⟩, fun j u found => ?_⟩, turn.size, turn.stopped⟩
  · simp only [List.forall_mem_cons]
    exact ⟨turn.early t (List.mem_of_getElem? turn.found), turn.awaited⟩
  by_cases here : j = i
  · have same : u = t := Option.some.inj (found.symm.trans (here ▸ turn.found))
    rw [same, here]
    refine .inl ⟨turn.alive, turn.started, fun _ => status, ?_⟩
    exact (show c.Rests (vm.orders t.serial) (bound i) t from turn.said ▸ rests)
  · have differ := serial_ne turn.distinct here turn.found found
    rcases turn.others j u here found with ⟨alive, started, idle, rests'⟩ | killed
    · refine .inl ⟨alive, started, fun pending => idle ?_, rests'⟩
      rcases List.mem_cons.mp pending with same | old
      · exact absurd same differ
      · exact old
    · exact .inr killed

theorem triple_pass (status : t.status = .running) (stack : t.stack = ⟨some id, {}⟩ :: below)
    (plain : (Opcodes.opcode id).IsPlain) (found : (c.project.blocks t.target).getBlock id = some b)
    (rest : next.Laid (c.project.blocks t.target) b.next)
    (later : List.Forall₂ (Awaits (c.project.blocks t.target)) below k)
    (continues : c.Continues said t.serial (.pass id next :: k))
    (few : c.steady → stepsLeft (.pass id next :: k) ≤ n + 1) :
    Triple (c.Turn size bound i t said) (primitive i id b) (fun _ => c.Outcome size bound i id n)
      (c.Halts size bound) := by
  have onward : c.Continues said t.serial (next :: k) := by
    apply continues.silent .pass
    intro steady
    obtain ⟨_, _, _, following⟩ := continues.calm steady _ List.mem_cons_self
    simp only [List.forall_mem_cons]
    exact ⟨following, fun p member => continues.calm steady p (List.mem_cons_of_mem _ member)⟩
  have enough : c.steady → stepsLeft (next :: k) ≤ n := by
    intro steady
    have all := few steady
    rw [stepsLeft_cons, Program.steps] at all
    rw [stepsLeft_cons]
    omega
  have goesOn : ∀ vm, c.Turn size bound i t said vm → c.Outcome size bound i id n vm := fun vm turn =>
    turn.onward status stack rfl found rest later onward enough
  have open' : Opcodes.opcode id = .controlWait ∨ Opcodes.opcode id = .controlWaitUntil ∨
      Opcodes.opcode id = .controlStop → ¬ c.steady := by
    intro waits steady
    obtain ⟨notWait, notUntil, notStop, _⟩ := continues.calm steady _ List.mem_cons_self
    rcases waits with same | same | same
    · exact notWait same
    · exact notUntil same
    · exact notStop same
  unfold primitive
  rcases plain with opcode | opcode | opcode | opcode | opcode | opcode
  case inl | inr.inl | inr.inr.inl =>
    rw [opcode]
    exact Triple.pure goesOn
  case inr.inr.inr.inl =>
    have unsteady := open' (.inl opcode)
    have waiting : t.waitForPromise = t.setStatus .promiseWait := by
      rw [Thread.waitForPromise, if_pos status]
    rw [opcode]
    apply (triple_update (Thread.same_waitForPromise t)).bind
    intro _
    rw [waiting]
    apply triple_read fun vm turn => turn.found
    apply Triple.modify
    intro vm turn
    have following : next.Laid (c.project.blocks t.target) ((c.project.blocks t.target).getNextBlock id) := by
      simpa [Blocks.getNextBlock, found] using rest
    exact .waits (turn.wait rfl (.waits rfl stack later following onward unsteady)) turn.found rfl
  case inr.inr.inr.inr.inl =>
    have unsteady := open' (.inr (.inl opcode))
    have laid : Program.Laid (c.project.blocks t.target) (some id) (.pass id next) :=
      ⟨rfl, b, found, .inr (.inr (.inr (.inr (.inl opcode)))), rest⟩
    have stands : Stands (c.project.blocks t.target) t.stack (.pass id next :: k) := by
      rw [stack]
      exact .on (.fresh laid) later
    rw [opcode]
    apply (triple_readInput Turn.moment b _).bind
    intro value
    split
    · apply (triple_update (Thread.same_setStatus .yield t)).conclude
      have top : (t.setStatus .yield).peekStack.isSome := by simp [Thread.setStatus, Thread.peekStack, stack]
      exact fun _ vm turn => .yields turn rfl top stands continues unsteady
    · exact Triple.pure goesOn
  case inr.inr.inr.inr.inr =>
    have unsteady := open' (.inr (.inr opcode))
    rw [opcode]
    apply triple_read fun vm turn => turn.found
    split
    · apply Triple.modify
      intro vm turn
      have stopped : (vm.threads.map Thread.stop)[i]? = some t.stop := by
        rw [List.getElem?_map, turn.found, Option.map_some]
      exact .gone (turn.stopAll unsteady) stopped rfl rfl
    · apply Triple.modify
      intro vm turn
      have same : (vm.threads.mapIdx fun j u =>
          if u.target = t.target ∧ some i ≠ some j then u.stop else u)[i]? = some t := by
        rw [List.getElem?_mapIdx, turn.found]
        simp
      exact goesOn _ (turn.stops unsteady
        (stopsSome_mapIdx vm.threads fun j u => u.target = t.target ∧ some i ≠ some j) same)
    · apply triple_blocks fun vm turn => turn.project
      apply (triple_update (Thread.same_stopThisScript _ t)).conclude
      intro _ vm turn
      obtain ⟨stopped, ended⟩ := stopThisScript_eq opcode stack later
      exact .gone (turn.rest (.ended ended stopped fun steady => absurd steady unsteady)) turn.found ended stopped

end Passing

section Executions

theorem loop_opcode {times : Option Nat} (loops : b.times id = some times) :
    ¬ (Opcodes.opcode id).IsPlain ∧ ∀ robot, Opcodes.opcode id ≠ .robot robot := by
  unfold Block.times at loops
  split at loops
  case h_1 opcode | h_2 opcode | h_3 opcode => simp [Opcode.IsPlain, opcode]
  case h_4 => cases loops

theorem triple_loop {frame : Frame} {trap : Fault → Vm → Prop} {times left : Option Nat} {body : Program}
    (status : t.status = .running) (stack : t.stack = ⟨some id, frame⟩ :: below)
    (found : (c.project.blocks t.target).getBlock id = some b) (loops : b.times id = some times)
    (known : times.isSome = left.isSome) (frames : frame = {} ∧ left = times ∨ frame.Counts left)
    (inner : body.Laid (c.project.blocks t.target) b.substack) (rest : next.Laid (c.project.blocks t.target) b.next)
    (acyclic : b.substack ≠ some id) (later : List.Forall₂ (Awaits (c.project.blocks t.target)) below k)
    (continues : c.Continues said t.serial (.loop id left body next :: k))
    (few : c.steady → stepsLeft (.loop id left body next :: k) ≤ n + 1) :
    Triple (c.Turn size bound i t said) (primitive i id b) (fun _ => c.Outcome size bound i id n) trap := by
  have whole := loops
  unfold Block.times at loops
  split at loops
  case h_1 opcode =>
    cases loops
    unfold primitive
    rw [opcode]
    refine triple_counted status stack found whole known frames (fun m same => ?_) inner rest acyclic later
      continues few
    cases same
    exact Count.passes_finite (by decide)
  case h_2 opcode =>
    unfold primitive
    rw [opcode]
    apply (triple_value Turn.moment b _).bind
    intro value vm both
    obtain ⟨turn, same⟩ := both
    refine triple_counted status stack found whole known frames (fun m passes => ?_) inner rest acyclic later continues
      few vm turn
    rw [← Option.some.inj loops] at passes
    obtain ⟨other, constant, passes⟩ := Option.bind_eq_some_iff.mp passes
    rwa [same other constant]
  case h_3 opcode =>
    cases loops
    have unknown : left = none := by simpa using known.symm
    subst unknown
    exact triple_until status stack opcode found (frames.imp_left And.left) inner rest acyclic later continues
  case h_4 => cases loops

theorem triple_primitive {frame : Frame} (status : t.status = .running) (stack : t.stack = ⟨some id, frame⟩ :: below)
    (found : (c.project.blocks t.target).getBlock id = some b)
    (here : Comes (c.project.blocks t.target) ⟨some id, frame⟩ p)
    (later : List.Forall₂ (Awaits (c.project.blocks t.target)) below k)
    (continues : c.Continues said t.serial (p :: k)) (few : c.steady → stepsLeft (p :: k) ≤ n + 1) :
    Triple (c.Turn size bound i t said) (primitive i id b) (fun _ => c.Outcome size bound i id n)
      (c.Halts size bound) := by
  have stands : Stands (c.project.blocks t.target) t.stack (p :: k) := by
    rw [stack]
    exact .on here later
  cases here with
  | fresh laid =>
    obtain ⟨b', found', begins⟩ := laid.begins
    rw [found] at found'
    cases found'
    cases begins with
    | emit opcode nonempty rest =>
      exact triple_emit status stack opcode found nonempty rest later stands continues few
    | loop loops inner rest =>
      obtain ⟨plain, silent⟩ := loop_opcode loops
      exact triple_loop status stack found loops rfl (.inl ⟨rfl, rfl⟩) inner rest
        (laid.not_own_substack found plain silent) later continues few
    | ifThen opcode inner rest =>
      have acyclic := laid.not_own_substack found (by simp [Opcode.IsPlain, opcode]) (by simp [opcode])
      exact triple_ifThen status stack opcode found acyclic inner rest later continues few
    | ifElse opcode inner other rest =>
      have acyclic := laid.not_own_substack found (by simp [Opcode.IsPlain, opcode]) (by simp [opcode])
      have acyclic' := laid.not_own_substack2 found opcode
      exact triple_ifElse status stack opcode found acyclic acyclic' inner other rest later continues few
    | pass plain rest => exact triple_pass status stack plain found rest later continues few
  | again looping =>
    cases looping with
    | loop found' loops known counts inner rest acyclic =>
      rw [found] at found'
      cases found'
      exact triple_loop status stack found loops known (.inr counts) inner rest acyclic later continues few

theorem triple_execute (status : t.status = .running) (top : t.peekStack = some id)
    (stands : Stands (c.project.blocks t.target) t.stack k) (continues : c.Continues said t.serial k)
    (few : c.steady → stepsLeft k ≤ n + 1) : Triple (c.Turn size bound i t said) (execute i)
      (fun _ => c.Outcome size bound i id n) (c.Halts size bound) := by
  unfold Thread.peekStack at top
  cases stack : t.stack with
  | nil => simp [stack] at top
  | cons level below =>
    obtain ⟨start, frame⟩ := level
    rw [stack] at top stands
    cases top
    cases stands with
    | on here later =>
      have found : ∃ b, (c.project.blocks t.target).getBlock id = some b := by
        cases here with
        | fresh laid =>
          obtain ⟨b, found, _⟩ := laid.begins
          exact ⟨b, found⟩
        | again looping =>
          cases looping with
          | loop found _ _ _ _ _ _ => exact ⟨_, found⟩
      obtain ⟨b, found⟩ := found
      have peek : t.peekStack = some id := by rw [Thread.peekStack, stack]
      unfold execute
      apply triple_read fun vm turn => turn.found
      rw [peek]
      dsimp only
      intro vm turn
      have located : vm.findBlock t id = some b := by
        simp [findBlock, turn.monitor t (List.mem_of_getElem? turn.found), turn.project, found]
      rw [EStateM.run_bind, EStateM.run_get]
      dsimp only
      rw [located]
      exact triple_primitive status stack found here later continues few vm turn

end Executions

end ArRobotCode.Scratch.Course
