import Mathlib.Logic.Relation
import Mathlib.Data.Fintype.Card
import Mathlib.Data.Set.Finite.Basic

namespace ParentForest

variable {ι : Type}

def IsParent (parent : ι → Option ι) (p c : ι) : Prop := parent c = some p

def Acyclic (parent : ι → Option ι) : Prop := WellFounded (IsParent parent)

/-- The second node is the first one or has it among its ancestors. -/
def Below (parent : ι → Option ι) : ι → ι → Prop := Relation.ReflTransGen (IsParent parent)

section Ancestors

variable {parent : ι → Option ι} {x y z p c : ι}

theorem below_iff_head : Below parent x y ↔ y = x ∨ ∃ c, parent c = some x ∧ Below parent c y := by
  constructor
  · intro below
    rcases below.cases_head with same | ⟨c, first, rest⟩
    · exact .inl same.symm
    · exact .inr ⟨c, first, rest⟩
  · intro given
    rcases given with rfl | ⟨c, first, rest⟩
    · exact .refl
    · exact .head first rest

theorem below_iff_tail : Below parent x y ↔ y = x ∨ ∃ p, parent y = some p ∧ Below parent x p := by
  constructor
  · intro below
    rcases below.cases_tail with same | ⟨p, rest, last⟩
    · exact .inl same
    · exact .inr ⟨p, last, rest⟩
  · intro given
    rcases given with rfl | ⟨p, last, rest⟩
    · exact .refl
    · exact .tail rest last

theorem Below.trans (first : Below parent x y) (second : Below parent y z) : Below parent x z :=
  Relation.ReflTransGen.trans first second

theorem Below.mono {parent' : ι → Option ι} (fewer : ∀ c p, parent' c = some p → parent c = some p)
    (below : Below parent' x y) : Below parent x y :=
  Relation.ReflTransGen.mono (fun p c named => fewer c p named) _ _ below

theorem below_root (root : parent y = none) (below : Below parent x y) : x = y := by
  rcases below_iff_tail.mp below with same | ⟨p, named, _⟩
  · exact same.symm
  · rw [root] at named
    cases named

theorem below_comparable (first : Below parent x z) (second : Below parent y z) :
    Below parent x y ∨ Below parent y x := by
  have unique : Relator.RightUnique (Function.swap (IsParent parent)) := by
    intro c p q one two
    exact Option.some.inj (Eq.trans (Eq.symm one) two)
  have up := Relation.ReflTransGen.total_of_right_unique unique (Relation.reflTransGen_swap.mpr first)
    (Relation.reflTransGen_swap.mpr second)
  rcases up with one | two
  · exact .inr (Relation.reflTransGen_swap.mp one)
  · exact .inl (Relation.reflTransGen_swap.mp two)

theorem Acyclic.no_loop (acyclic : Acyclic parent) (x : ι) : ¬ Relation.TransGen (IsParent parent) x x := by
  induction x using acyclic.transGen.induction with
  | _ x ih =>
    intro loop
    exact ih x loop loop

theorem Acyclic.not_below_parent (acyclic : Acyclic parent) (named : parent c = some p) : ¬ Below parent c p := by
  intro below
  have loop : Relation.TransGen (IsParent parent) c c := Relation.TransGen.tail' below named
  exact acyclic.no_loop c loop

theorem Acyclic.siblings_apart (acyclic : Acyclic parent) (one : parent x = some p) (two : parent y = some p)
    (differ : x ≠ y) (below : Below parent x z) : ¬ Below parent y z := by
  intro other
  have meets : ∀ {a b : ι}, parent a = some p → parent b = some p → a ≠ b → Below parent a b → False := by
    intro a b first second apart inside
    rcases below_iff_tail.mp inside with same | ⟨q, named, rest⟩
    · exact apart same.symm
    · rw [second] at named
      cases named
      exact acyclic.not_below_parent first rest
  rcases below_comparable below other with inside | inside
  · exact meets one two differ inside
  · exact meets two one (Ne.symm differ) inside

theorem root_unique {r s : ι} (one : parent r = none) (two : parent s = none) (first : Below parent r x)
    (second : Below parent s x) : r = s := by
  rcases below_comparable first second with inside | inside
  · exact below_root two inside
  · exact (below_root one inside).symm

end Ancestors

section Changes

variable {parent parent' : ι → Option ι} {x p : ι}

theorem Acyclic.mono (acyclic : Acyclic parent) (fewer : ∀ c p, parent' c = some p → parent c = some p) :
    Acyclic parent' := Subrelation.wf (fun {p c} named => fewer c p named) acyclic

variable [DecidableEq ι]

theorem Acyclic.attach (acyclic : Acyclic parent) (apart : ¬ Below parent x p) :
    Acyclic (Function.update parent x (some p)) := by
  -- The ancestors of the new parent are not `x`, so their chain has not changed.
  have above : ∀ c, ¬ Below parent x c → Acc (IsParent (Function.update parent x (some p))) c := by
    intro c
    induction c using acyclic.induction with
    | _ c ih =>
      intro free
      have other : c ≠ x := fun same => free (same ▸ .refl)
      refine ⟨c, fun q named => ?_⟩
      rw [IsParent, Function.update_of_ne other] at named
      exact ih q named fun below => free (.tail below named)
  have hung : Acc (IsParent (Function.update parent x (some p))) x := by
    refine ⟨x, fun q named => ?_⟩
    rw [IsParent, Function.update_self] at named
    cases named
    exact above p apart
  refine ⟨fun c => ?_⟩
  induction c using acyclic.induction with
  | _ c ih =>
    by_cases same : c = x
    · rw [same]
      exact hung
    · refine ⟨c, fun q named => ?_⟩
      rw [IsParent, Function.update_of_ne same] at named
      exact ih q named

end Changes

/-- Where only finitely many nodes have a parent, the way down ends as well. -/
theorem Acyclic.downward {parent : ι → Option ι} (acyclic : Acyclic parent)
    (finite : {c | (parent c).isSome}.Finite) : WellFounded fun c p => parent c = some p := by
  let lower : {c | (parent c).isSome} → {c | (parent c).isSome} → Prop :=
    fun c d => Relation.TransGen (fun c p => parent c = some p) c.1 d.1
  have trans : IsTrans _ lower := ⟨fun _ _ _ first second => Relation.TransGen.trans first second⟩
  have irrefl : Std.Irrefl lower := by
    refine ⟨fun c loop => ?_⟩
    exact acyclic.no_loop c.1 (Relation.transGen_swap.mp loop)
  have listed := finite.to_subtype
  have ends := Finite.wellFounded_of_trans_of_irrefl lower
  have each : ∀ d : {c | (parent c).isSome}, Acc (fun c p => parent c = some p) d.1 := by
    intro d
    induction d using ends.induction with
    | _ d ih =>
      refine ⟨d.1, fun c named => ?_⟩
      exact ih ⟨c, by simp [named]⟩ (.single named)
  refine ⟨fun p => ⟨p, fun c named => ?_⟩⟩
  exact each ⟨c, by simp [named]⟩

end ParentForest
