import ArRobotCode.Scratch.Programs
import ArRobotCode.Scratch.Simulation

namespace ArRobotCode.Scratch

open Structured

section Branches

variable [JavaScript] [Opcodes]

variable {blocks : Blocks} {p : Program} {id : BlockId} {b : Block}

theorem Program.Laid.not_own_substack (laid : p.Laid blocks (some id)) (found : blocks.getBlock id = some b)
    (plain : ¬ (Opcodes.opcode id).IsPlain) (silent : ∀ robot, Opcodes.opcode id ≠ .robot robot) :
    b.substack ≠ some id := by
  intro own
  induction p with
  | done => cases laid
  | emit id' symbols next ih =>
    obtain ⟨start, _, robot, _, opcode, _⟩ := laid
    cases start
    exact silent robot opcode
  | loop id' times body next ihBody ihNext =>
    obtain ⟨start, b', found', _, inner, _⟩ := laid
    cases start
    rw [found] at found'
    cases found'
    exact ihBody (own ▸ inner)
  | choose id' yes no next ihYes ihNo ihNext =>
    obtain ⟨start, b', found', inner, _⟩ := laid
    cases start
    rw [found] at found'
    cases found'
    exact ihYes (own ▸ inner)
  | pass id' next ih =>
    obtain ⟨start, _, _, isPlain, _⟩ := laid
    cases start
    exact plain isPlain

theorem Program.Laid.not_own_substack2 (laid : p.Laid blocks (some id)) (found : blocks.getBlock id = some b)
    (opcode : Opcodes.opcode id = .controlIfElse) : b.substack2 ≠ some id := by
  intro own
  induction p with
  | done => cases laid
  | emit id' symbols next ih =>
    obtain ⟨start, _, robot, _, other, _⟩ := laid
    cases start
    rw [opcode] at other
    cases other
  | loop id' times body next ihBody ihNext =>
    obtain ⟨start, b', _, loops, _⟩ := laid
    cases start
    simp [Block.times, opcode] at loops
  | choose id' yes no next ihYes ihNo ihNext =>
    obtain ⟨start, b', found', _, second, _⟩ := laid
    cases start
    rw [found] at found'
    cases found'
    rcases second with ⟨other, _⟩ | ⟨_, second⟩
    · rw [opcode] at other
      cases other
    · exact ihNo (own ▸ second)
  | pass id' next ih =>
    obtain ⟨start, _, _, isPlain, _⟩ := laid
    cases start
    simp [Opcode.IsPlain, opcode] at isPlain

end Branches

section Frames

/-- The frame of a loop with as many passes left as `left` says. -/
def Frame.Counts (frame : Frame) : Option Nat → Prop
  | none => ∃ counter, frame = { isLoop := true, loopCounter := counter }
  | some passes => frame = { isLoop := true, loopCounter := some (.finite passes) } ∧ passes ≤ maxExact

theorem Frame.Counts.plain {frame : Frame} {left : Option Nat} (counts : frame.Counts left) :
    frame.warpMode = false ∧ frame.isLoop = true := by
  cases left with
  | none =>
    obtain ⟨counter, rfl⟩ := counts
    exact ⟨rfl, rfl⟩
  | some passes =>
    obtain ⟨rfl, _⟩ := counts
    exact ⟨rfl, rfl⟩

end Frames

section Stacks

variable [JavaScript] [Opcodes]

inductive Looping (blocks : Blocks) : Level → Program → Prop
  | loop {id : BlockId} {b : Block} {frame : Frame} {times left : Option Nat} {body next : Program}
      (found : blocks.getBlock id = some b) (loops : b.times id = some times) (known : times.isSome = left.isSome)
      (counts : frame.Counts left) (inner : body.Laid blocks b.substack) (rest : next.Laid blocks b.next)
      (acyclic : b.substack ≠ some id) : Looping blocks ⟨some id, frame⟩ (.loop id left body next)

inductive Awaits (blocks : Blocks) : Level → Program → Prop
  | loop {level : Level} {p : Program} (looping : Looping blocks level p) : Awaits blocks level p
  | branch {id : BlockId} {b : Block} {next : Program} (found : blocks.getBlock id = some b)
      (opcode : Opcodes.opcode id = .controlIf ∨ Opcodes.opcode id = .controlIfElse)
      (rest : next.Laid blocks b.next) : Awaits blocks ⟨some id, {}⟩ next

inductive Comes (blocks : Blocks) : Level → Program → Prop
  | fresh {start : Option BlockId} {p : Program} (laid : p.Laid blocks start) : Comes blocks ⟨start, {}⟩ p
  | again {level : Level} {p : Program} (looping : Looping blocks level p) : Comes blocks level p

/-- The stack of a thread stands for the programs that the thread has still to run. -/
inductive Stands (blocks : Blocks) : List Level → List Program → Prop
  | ended : Stands blocks [] []
  | on {top : Level} {below : List Level} {p : Program} {k : List Program} (here : Comes blocks top p)
      (later : List.Forall₂ (Awaits blocks) below k) : Stands blocks (top :: below) (p :: k)

variable {blocks : Blocks} {level : Level} {p : Program} {stack below : List Level} {k : List Program}

theorem Looping.vocal (looping : Looping blocks level p) : p.Vocal := by
  cases looping with
  | loop _ _ _ _ inner rest _ => exact ⟨inner.vocal, rest.vocal⟩

theorem Looping.plain (looping : Looping blocks level p) :
    level.frame.warpMode = false ∧ level.frame.isLoop = true := by
  cases looping with
  | loop _ _ _ counts _ _ _ => exact counts.plain

theorem Awaits.plain (awaits : Awaits blocks level p) : level.frame.warpMode = false := by
  cases awaits with
  | loop looping => exact looping.plain.1
  | branch _ _ _ => rfl

theorem Stands.plain {t : Thread} (stands : Stands blocks t.stack k) : t.peekStackFrame.warpMode = false := by
  unfold Thread.peekStackFrame
  cases stack : t.stack with
  | nil => rfl
  | cons top below =>
    rw [stack] at stands
    cases stands with
    | on here _ =>
      cases here with
      | fresh _ => rfl
      | again looping => exact looping.plain.1

theorem Stands.vocal (stands : Stands blocks stack k) : ∀ p ∈ k, p.Vocal := by
  cases stands with
  | ended => simp
  | on here later =>
    intro p member
    rcases List.mem_cons.mp member with rfl | inside
    · cases here with
      | fresh laid => exact laid.vocal
      | again looping => exact looping.vocal
    · clear here member
      induction later with
      | nil => cases inside
      | cons awaits _ ih =>
        rcases List.mem_cons.mp inside with rfl | inside
        · cases awaits with
          | loop looping => exact looping.vocal
          | branch _ _ rest => exact rest.vocal
        · exact ih inside

theorem stands_below (later : List.Forall₂ (Awaits blocks) (level :: below) k) (isLoop : level.frame.isLoop = true) :
    Stands blocks (level :: below) k := by
  cases later with
  | cons awaits rest =>
    cases awaits with
    | loop looping => exact .on (.again looping) rest
    | branch _ _ _ => cases isLoop

theorem stands_next (later : List.Forall₂ (Awaits blocks) (level :: below) k) (isLoop : level.frame.isLoop = false) :
    ∃ id, level = ⟨some id, {}⟩ ∧ Stands blocks (⟨blocks.getNextBlock id, {}⟩ :: below) k := by
  cases later with
  | cons awaits rest =>
    cases awaits with
    | loop looping =>
      rw [looping.plain.2] at isLoop
      cases isLoop
    | @branch id b next found _ following =>
      refine ⟨id, rfl, .on (.fresh ?_) rest⟩
      simpa [Blocks.getNextBlock, found] using following

def Settled (stack : List Level) : Prop :=
  ∀ level ∈ stack.head?, level.block = none → ∀ parent ∈ stack.tail.head?, parent.frame.isLoop = true

theorem stands_afterPromise {id : BlockId} {next : Program} (rest : next.Laid blocks (blocks.getNextBlock id))
    (later : List.Forall₂ (Awaits blocks) below k) :
    ∃ k', Stands blocks (Thread.afterPromise blocks (⟨some id, {}⟩ :: below)) k' ∧ Leads (next :: k) [] k' ∧
      Settled (Thread.afterPromise blocks (⟨some id, {}⟩ :: below)) := by
  induction later generalizing id next with
  | nil =>
    cases following : blocks.getNextBlock id with
    | some after =>
      rw [following] at rest
      refine ⟨[next], ?_, .refl _, ?_⟩
      · simp only [Thread.afterPromise, following]
        exact .on (.fresh rest) .nil
      · simp [Thread.afterPromise, following, Settled]
    | none =>
      rw [following] at rest
      refine ⟨[next], ?_, .refl _, ?_⟩
      · simp only [Thread.afterPromise, following]
        exact .on (.fresh rest) .nil
      · simp [Thread.afterPromise, following, Settled]
  | @cons parent p below k awaits later ih =>
    cases following : blocks.getNextBlock id with
    | some after =>
      rw [following] at rest
      refine ⟨next :: p :: k, ?_, .refl _, ?_⟩
      · simp only [Thread.afterPromise, following, List.head?_cons, Option.map_some, Option.getD_some, awaits.plain]
        exact .on (.fresh rest) (.cons awaits later)
      · simp [Thread.afterPromise, following, Settled]
    | none =>
      rw [following] at rest
      cases rest.eq_done
      cases awaits with
      | loop looping =>
        refine ⟨.done :: p :: k, ?_, .refl _, ?_⟩
        · simp only [Thread.afterPromise, following, looping.plain, if_true]
          exact .on (.fresh rest) (.cons (.loop looping) later)
        · simp [Thread.afterPromise, following, looping.plain, Settled]
      | @branch parentId b _ found _ following' =>
        have onward : p.Laid blocks (blocks.getNextBlock parentId) := by
          simpa [Blocks.getNextBlock, found] using following'
        obtain ⟨k', stands, leads, settled⟩ := ih onward
        have popped : Thread.afterPromise blocks (⟨some id, {}⟩ :: ⟨some parentId, {}⟩ :: below) =
            Thread.afterPromise blocks (⟨some parentId, {}⟩ :: below) := by
          rw [Thread.afterPromise]
          simp only [following, Bool.false_eq_true, if_false]
        rw [popped]
        exact ⟨k', stands, Leads.done.trans leads, settled⟩

end Stacks

end ArRobotCode.Scratch
