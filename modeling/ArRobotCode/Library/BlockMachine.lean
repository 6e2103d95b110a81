import Mathlib.Init

namespace BlockMachine

variable {ι μ : Type}

/-- A block of a program: it emits messages or repeats a branch, and names the block after it. -/
inductive Node (ι μ : Type) where
  | emit (messages : List μ) (next : Option ι)
  | loop (times : Nat) (branch next : Option ι)

inductive Script (ι μ : Type) where
  | done
  | emit (id : ι) (messages : List μ) (next : Script ι μ)
  | loop (id : ι) (times : Nat) (body next : Script ι μ)

namespace Script

def trace : Script ι μ → List μ
  | done => []
  | emit _ messages next => messages ++ trace next
  | loop _ times body next => (List.replicate times (trace body)).flatten ++ trace next

/-- The script is laid out by identifiers, from `start` on. -/
def Laid (code : ι → Option (Node ι μ)) : Option ι → Script ι μ → Prop
  | start, done => start = none
  | start, emit id messages next => start = some id ∧
    ∃ after, code id = some (.emit messages after) ∧ Laid code after next
  | start, loop id times body next => start = some id ∧
    ∃ branch after, code id = some (.loop times branch after) ∧ Laid code branch body ∧ Laid code after next

end Script

/-- The blocks that have been entered, innermost first. A loop keeps how many passes are left after this one. -/
abbrev Stack (ι : Type) := List (ι × Option Nat)

def resume (start : Option ι) (stack : Stack ι) : Stack ι :=
  match start with
  | some id => (id, none) :: stack
  | none => stack

def step (code : ι → Option (Node ι μ)) : Stack ι → Option (List μ × Stack ι)
  | [] => none
  | (id, left) :: stack =>
    match code id with
    | none => none
    | some (.emit messages next) => some (messages, resume next stack)
    | some (.loop times branch next) =>
      match left.getD times with
      | 0 => some ([], resume next stack)
      | passes + 1 => some ([], resume branch ((id, some passes) :: stack))

/-- Only the innermost entry may be a block that is entered for the first time. -/
def Nested (stack : Stack ι) : Prop := ∀ entry ∈ stack.tail, entry.2.isSome

theorem Nested.resume {stack : Stack ι} (loops : ∀ entry ∈ stack, entry.2.isSome) (start : Option ι) :
    Nested (BlockMachine.resume start stack) := by
  cases start with
  | none => exact fun entry member => loops entry (List.mem_of_mem_tail member)
  | some id => exact loops

theorem Nested.step {code : ι → Option (Node ι μ)} {stack next : Stack ι} {emitted : List μ} (nested : Nested stack)
    (stepped : step code stack = some (emitted, next)) : Nested next := by
  unfold BlockMachine.step at stepped
  split at stepped
  · cases stepped
  · rename_i id left below
    split at stepped
    · cases stepped
    · cases stepped
      exact .resume nested _
    · split at stepped
      · cases stepped
        exact .resume nested _
      · cases stepped
        apply Nested.resume
        intro entry member
        rcases List.mem_cons.mp member with same | inside
        · rw [same]
          rfl
        · exact nested entry inside

inductive Steps (code : ι → Option (Node ι μ)) : Nat → Stack ι → List μ → Stack ι → Prop where
  | refl (stack : Stack ι) : Steps code 0 stack [] stack
  | step {n : Nat} {stack middle last : Stack ι} {emitted rest : List μ}
      (first : step code stack = some (emitted, middle))
      (later : Steps code n middle rest last) : Steps code (n + 1) stack (emitted ++ rest) last

namespace Steps

variable {code : ι → Option (Node ι μ)} {m n : Nat} {stack middle last : Stack ι} {emitted rest : List μ}

theorem trans (first : Steps code m stack emitted middle) (second : Steps code n middle rest last) :
    Steps code (m + n) stack (emitted ++ rest) last := by
  induction first with
  | refl stack => simpa using second
  | step first later ih =>
    rw [Nat.add_right_comm, List.append_assoc]
    exact .step first (ih second)

theorem single (first : BlockMachine.step code stack = some (emitted, middle)) : Steps code 1 stack emitted middle := by
  simpa using Steps.step first (.refl middle)

theorem pos (steps : Steps code n stack emitted last) (moved : stack ≠ last) : 0 < n := by
  cases steps with
  | refl => exact absurd rfl moved
  | step first later => exact Nat.succ_pos _

end Steps

namespace Script

variable {code : ι → Option (Node ι μ)}

theorem loop_passes {id : ι} {times : Nat} {branch after : Option ι}
    (found : code id = some (.loop times branch after)) {emitted : List μ}
    (body : ∀ stack, ∃ n, Steps code n (resume branch stack) emitted stack) (passes : Nat) (left : Option Nat)
    (counts : left.getD times = passes) (stack : Stack ι) :
    ∃ n, Steps code n ((id, left) :: stack) (List.replicate passes emitted).flatten (resume after stack) := by
  induction passes generalizing left with
  | zero => exact ⟨1, .single (by simp [step, found, counts])⟩
  | succ passes ih =>
    have enter : step code ((id, left) :: stack) = some ([], resume branch ((id, some passes) :: stack)) := by
      simp [step, found, counts]
    obtain ⟨m, pass⟩ := body ((id, some passes) :: stack)
    obtain ⟨n, remaining⟩ := ih (some passes) rfl
    refine ⟨1 + m + n, ?_⟩
    rw [List.replicate_succ, List.flatten_cons]
    exact ((Steps.single enter).trans pass).trans remaining

theorem Laid.run {script : Script ι μ} {start : Option ι} (laid : script.Laid code start) (stack : Stack ι) :
    ∃ n, Steps code n (resume start stack) script.trace stack := by
  induction script generalizing start stack with
  | done =>
    cases laid
    exact ⟨0, .refl stack⟩
  | emit id messages next ih =>
    obtain ⟨rfl, after, found, rest⟩ := laid
    obtain ⟨n, steps⟩ := ih rest stack
    have first : step code (resume (some id) stack) = some (messages, resume after stack) := by
      simp [resume, step, found]
    exact ⟨n + 1, .step first steps⟩
  | loop id times body next ihBody ihNext =>
    obtain ⟨rfl, branch, after, found, inner, rest⟩ := laid
    obtain ⟨m, passes⟩ := loop_passes found (ihBody inner) times none rfl stack
    obtain ⟨n, steps⟩ := ihNext rest stack
    exact ⟨m + n, passes.trans steps⟩

end Script

end BlockMachine
