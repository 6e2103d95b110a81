import Mathlib.Data.List.Forall2
import ArRobotCode.Library.Triples

namespace Trapping

variable {ε σ τ ι κ : Type}

/-- The outcome of a computation is that of the model: a related state, or a trap where the model has none. -/
def Agrees (R : σ → τ → Prop) (x : EStateM ε σ Unit) (s : σ) : Option τ → Prop
  | some a => ∃ s', x.run s = .ok () s' ∧ R s' a
  | none => trapOf x s ≠ none

/-- Commands agree with the steps of the labels that they stand for, from related states on. -/
def Simulates (R : σ → τ → Prop) (L : ι → κ → Prop) (op : ι → EStateM ε σ Unit) (step : τ → κ → Option τ) : Prop :=
  ∀ s a i k, R s a → L i k → Agrees R (op i) s (step a k)

section Runs

variable {R : σ → τ → Prop} {L : ι → κ → Prop} {op : ι → EStateM ε σ Unit} {step : τ → κ → Option τ}

theorem trapOf_runAll_cons_of_trap {i : ι} {s : σ} (trapped : trapOf (op i) s ≠ none) (is : List ι) :
    trapOf (runAll op (i :: is)) s ≠ none := by
  unfold trapOf at trapped ⊢
  rw [runAll_cons]
  cases ran : (op i).run s with
  | ok _ s' => simp [ran] at trapped
  | error e s' => simp

theorem trapOf_runAll_cons_of_ok {i : ι} {s s' : σ} (first : (op i).run s = .ok () s') (is : List ι) :
    trapOf (runAll op (i :: is)) s = trapOf (runAll op is) s' := by
  unfold trapOf
  rw [runAll_cons, first]

theorem Simulates.runAll (simulates : Simulates R L op step) {is : List ι} {ks : List κ} {s : σ} {a : τ}
    (related : R s a) (labels : List.Forall₂ L is ks) : Agrees R (Trapping.runAll op is) s (ks.foldlM step a) := by
  induction labels generalizing s a with
  | nil => exact ⟨s, rfl, related⟩
  | @cons i k is ks label labels ih =>
    have here := simulates s a i k related label
    rw [List.foldlM_cons]
    cases stepped : step a k with
    | none =>
      rw [stepped] at here
      exact trapOf_runAll_cons_of_trap here is
    | some a' =>
      rw [stepped] at here
      obtain ⟨s', ran, related'⟩ := here
      have rest := ih related'
      simp only [Option.bind_eq_bind, Option.bind_some]
      cases later : ks.foldlM step a' with
      | none =>
        rw [later] at rest
        simpa only [Agrees, trapOf_runAll_cons_of_ok ran] using rest
      | some last =>
        rw [later] at rest
        obtain ⟨s'', ranRest, related''⟩ := rest
        exact ⟨s'', runAll_cons_ok.mpr ⟨s', ran, ranRest⟩, related''⟩

end Runs

end Trapping
