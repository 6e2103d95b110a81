import Mathlib.Logic.Function.Basic
import ArRobotCode.Library.Triples

namespace Programs

/-- Code that calls operations `O` of a shared state and continues with their replies `R`. -/
inductive Program (O R α : Type) where
  | done (value : α)
  | call (op : O) (rest : R → Program O R α)

variable {O R α β σ ι ε : Type}

namespace Program

def bind : Program O R α → (α → Program O R β) → Program O R β
  | done value, f => f value
  | call op rest, f => call op fun reply => (rest reply).bind f

instance : Monad (Program O R) where
  pure := done
  bind := bind

def perform (op : O) : Program O R R := call op done

@[simp] theorem pure_eq_done (value : α) : (pure value : Program O R α) = done value := rfl

@[simp] theorem call_bind (op : O) (rest : R → Program O R α) (f : α → Program O R β) :
    call op rest >>= f = call op fun reply => rest reply >>= f := rfl

@[simp] theorem perform_bind (op : O) (f : R → Program O R β) : perform op >>= f = call op f := rfl

def run (serve : O → σ → R × σ) : Program O R α → σ → α × σ
  | done value, s => (value, s)
  | call op rest, s => (rest (serve op s).1).run serve (serve op s).2

@[simp] theorem run_done (serve : O → σ → R × σ) (value : α) (s : σ) :
    (done value : Program O R α).run serve s = (value, s) := rfl

@[simp] theorem run_call (serve : O → σ → R × σ) (op : O) (rest : R → Program O R α) (s : σ) :
    (call op rest).run serve s = (rest (serve op s).1).run serve (serve op s).2 := rfl

theorem run_bind (serve : O → σ → R × σ) (x : Program O R α) (f : α → Program O R β) (s : σ) :
    (x >>= f).run serve s = (f (x.run serve s).1).run serve (x.run serve s).2 := by
  induction x generalizing s with
  | done value => rfl
  | call op rest ih => exact ih (serve op s).1 (serve op s).2

/-- The program only reads on, and ends with a value that is seen as `seen` whatever the replies are. -/
inductive Settled (reads : O → Prop) (view : α → β) (seen : β) : Program O R α → Prop where
  | done {value : α} (same : view value = seen) : Settled reads view seen (done value)
  | call {op : O} {rest : R → Program O R α} (read : reads op)
      (always : ∀ reply, Settled reads view seen (rest reply)) : Settled reads view seen (call op rest)

end Program

structure Pool (ι σ O R α : Type) where
  shared : σ
  threads : ι → Program O R α

namespace Pool

def start (programs : ι → Program O R α) (s : σ) : Pool ι σ O R α :=
  { shared := s, threads := programs }

def advance [DecidableEq ι] (serve : O → σ → R × σ) (i : ι) (p : Pool ι σ O R α) : Pool ι σ O R α :=
  match p.threads i with
  | .done _ => p
  | .call op rest =>
    { shared := (serve op p.shared).2
      threads := Function.update p.threads i (rest (serve op p.shared).1) }

def step [DecidableEq ι] (serve : O → σ → R × σ) (i : ι) : EStateM ε (Pool ι σ O R α) Unit := modify (advance serve i)

variable [DecidableEq ι] {serve : O → σ → R × σ} {p : Pool ι σ O R α} {i : ι}

theorem advance_done {value : α} (ended : p.threads i = .done value) : p.advance serve i = p := by
  simp only [advance, ended]

theorem advance_call {op : O} {rest : R → Program O R α} (calls : p.threads i = .call op rest) :
    p.advance serve i =
      { shared := (serve op p.shared).2
        threads := Function.update p.threads i (rest (serve op p.shared).1) } := by
  simp only [advance, calls]

theorem advance_other {j : ι} (other : j ≠ i) : (p.advance serve i).threads j = p.threads j := by
  unfold advance
  split
  · rfl
  · simp only [Function.update_of_ne other]

end Pool

def serially (serve : O → σ → R × σ) (programs : ι → Program O R α) : List ι → σ → List (ι × α) × σ
  | [], s => ([], s)
  | i :: order, s =>
    let (value, next) := (programs i).run serve s
    let (values, last) := serially serve programs order next
    ((i, value) :: values, last)

theorem serially_append (serve : O → σ → R × σ) (programs : ι → Program O R α) (order : List ι) (i : ι) (s : σ) :
    serially serve programs (order ++ [i]) s =
      ((serially serve programs order s).1 ++
          [(i, ((programs i).run serve (serially serve programs order s).2).1)],
        ((programs i).run serve (serially serve programs order s).2).2) := by
  induction order generalizing s with
  | nil => rfl
  | cons j order ih => simp only [List.cons_append, serially, ih]

theorem map_fst_serially (serve : O → σ → R × σ) (programs : ι → Program O R α) (order : List ι) (s : σ) :
    (serially serve programs order s).1.map Prod.fst = order := by
  induction order generalizing s with
  | nil => rfl
  | cons i order ih => simp only [serially, List.map_cons, ih]

/-- All threads have ended as if each program had run alone, in this order; values are compared by `view`. -/
structure SerialOrder (serve : O → σ → R × σ) (view : α → β) (programs : ι → Program O R α) (s : σ)
    (p : Pool ι σ O R α) (order : List ι) : Prop where
  nodup : order.Nodup
  complete : ∀ i, i ∈ order
  last : (serially serve programs order s).2 = p.shared
  values : ∀ entry ∈ (serially serve programs order s).1,
    ∃ value, p.threads entry.1 = .done value ∧ view value = view entry.2

/-- The programs of `order` have taken effect, as if each had run alone, and left the state `effect`. -/
structure Committed (serve : O → σ → R × σ) (reads : O → Prop) (view : α → β) (programs : ι → Program O R α)
    (s : σ) (order : List ι) (effect : σ) (p : Pool ι σ O R α) : Prop where
  nodup : order.Nodup
  last : (serially serve programs order s).2 = effect
  settled : ∀ entry ∈ (serially serve programs order s).1,
    (p.threads entry.1).Settled reads view (view entry.2)
  ended : ∀ i value, p.threads i = .done value → i ∈ order

namespace Committed

variable [DecidableEq ι] {serve : O → σ → R × σ} {reads : O → Prop} {view : α → β} {programs : ι → Program O R α}
  {s effect : σ} {order : List ι} {p : Pool ι σ O R α} {i : ι}

omit [DecidableEq ι] in
theorem settled_of_mem (committed : Committed serve reads view programs s order effect p) (member : i ∈ order) :
    ∃ seen, (p.threads i).Settled reads view seen := by
  rw [← map_fst_serially serve programs order s] at member
  obtain ⟨entry, listed, rfl⟩ := List.mem_map.mp member
  exact ⟨_, committed.settled entry listed⟩

theorem settled_advance (committed : Committed serve reads view programs s order effect p) :
    ∀ entry ∈ (serially serve programs order s).1,
      ((p.advance serve i).threads entry.1).Settled reads view (view entry.2) := by
  intro entry member
  have before := committed.settled entry member
  rcases eq_or_ne entry.1 i with same | other
  · cases stage : p.threads entry.1 with
    | done value =>
      rw [Pool.advance_done (by rw [← same]; exact stage)]
      exact before
    | call op rest =>
      rw [← same, Pool.advance_call stage]
      rw [stage] at before
      cases before with
      | call read always => simpa only [Function.update_self] using always _
  · rw [Pool.advance_other other]
    exact before

theorem stay (committed : Committed serve reads view programs s order effect p)
    (open' : ∀ value, (p.advance serve i).threads i = .done value → i ∈ order) :
    Committed serve reads view programs s order effect (p.advance serve i) where
  nodup := committed.nodup
  last := committed.last
  settled := committed.settled_advance
  ended j value ended := by
    rcases eq_or_ne j i with rfl | other
    · exact open' value ended
    · rw [Pool.advance_other other] at ended
      exact committed.ended j value ended

theorem commit (committed : Committed serve reads view programs s order effect p) (isNew : i ∉ order)
    (sure : ((p.advance serve i).threads i).Settled reads view (view ((programs i).run serve effect).1)) :
    Committed serve reads view programs s (order ++ [i]) ((programs i).run serve effect).2
      (p.advance serve i) where
  nodup := by
    rw [List.nodup_append]
    refine ⟨committed.nodup, by simp, fun j member k single => ?_⟩
    rw [List.mem_singleton.mp single]
    intro same
    subst same
    exact isNew member
  last := by rw [serially_append, committed.last]
  settled entry member := by
    rw [serially_append, committed.last] at member
    rcases List.mem_append.mp member with old | single
    · exact committed.settled_advance entry old
    · rw [List.mem_singleton.mp single]
      exact sure
  ended j value ended := by
    rcases eq_or_ne j i with rfl | other
    · exact List.mem_append_right order (List.mem_singleton_self j)
    · rw [Pool.advance_other other] at ended
      exact List.mem_append_left [i] (committed.ended j value ended)

omit [DecidableEq ι] in
theorem serialOrder (committed : Committed serve reads view programs s order p.shared p)
    (complete : ∀ i, ∃ value, p.threads i = .done value) : SerialOrder serve view programs s p order where
  nodup := committed.nodup
  complete i := by
    obtain ⟨value, ended⟩ := complete i
    exact committed.ended i value ended
  last := committed.last
  values entry member := by
    obtain ⟨value, ended⟩ := complete entry.1
    have settled := committed.settled entry member
    rw [ended] at settled
    cases settled with
    | done same => exact ⟨value, ended, same⟩

end Committed

end Programs
