import Mathlib.Init

namespace Trapping

variable {ε σ : Type}

/-- The loop `while guard { body }`, started in the first state, ends in the second one: neither the guard nor the
    body has trapped, and the guard has failed at last. -/
inductive LoopEnds (guard : EStateM ε σ Bool) (body : EStateM ε σ Unit) : σ → σ → Prop
  | stop {s s' : σ} (fails : guard.run s = .ok false s') : LoopEnds guard body s s'
  | again {s s₁ s₂ s' : σ} (holds : guard.run s = .ok true s₁) (round : body.run s₁ = .ok () s₂)
    (rest : LoopEnds guard body s₂ s') : LoopEnds guard body s s'

namespace LoopEnds

variable {guard : EStateM ε σ Bool} {body : EStateM ε σ Unit} {s s' s'' : σ}

theorem unique (first : LoopEnds guard body s s') (second : LoopEnds guard body s s'') : s' = s'' := by
  induction first with
  | stop fails =>
    cases second with
    | stop fails' =>
      rw [fails] at fails'
      cases fails'
      rfl
    | again holds _ _ =>
      rw [fails] at holds
      cases holds
  | again holds round _ ih =>
    cases second with
    | stop fails =>
      rw [holds] at fails
      cases fails
    | again holds' round' rest =>
      rw [holds] at holds'
      cases holds'
      rw [round] at round'
      cases round'
      exact ih rest

/-- A loop ends where its invariant lets every round run and makes a natural number smaller. -/
theorem of_variant (guard : EStateM ε σ Bool) (body : EStateM ε σ Unit) (inv : σ → Prop) (more : σ → Bool)
    (measure : σ → Nat)
    (asks : ∀ s, inv s → guard.run s = .ok (more s) s)
    (turns : ∀ s, inv s → more s = true → ∃ s', body.run s = .ok () s' ∧ inv s' ∧ measure s' < measure s)
    (start : inv s) : ∃ s', LoopEnds guard body s s' ∧ inv s' ∧ more s' = false := by
  induction size : measure s using Nat.strongRecOn generalizing s with
  | ind n ih =>
    have asked := asks s start
    cases answer : more s with
    | false =>
      rw [answer] at asked
      exact ⟨s, .stop asked, start, answer⟩
    | true =>
      rw [answer] at asked
      obtain ⟨next, round, kept, smaller⟩ := turns s start answer
      obtain ⟨s', ends, kept', over'⟩ := ih (measure next) (by omega) kept rfl
      exact ⟨s', .again asked round ends, kept', over'⟩

end LoopEnds

end Trapping
