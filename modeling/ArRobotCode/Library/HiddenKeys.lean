import Mathlib.Data.Finmap

namespace HiddenKeys

variable {ι κ α : Type}

/-- `actual` is `whole` without the keys that their owners have taken out. -/
structure Hides [DecidableEq κ] (taken : ι → Option κ) (whole actual : Finmap fun _ : κ => α) : Prop where
  present : ∀ i key, taken i = some key → key ∈ whole
  absent : ∀ i key, taken i = some key → key ∉ actual
  unique : ∀ i j key, taken i = some key → taken j = some key → i = j
  same : ∀ key, (∀ i, taken i ≠ some key) → whole.lookup key = actual.lookup key

namespace Hides

variable [DecidableEq κ] {taken : ι → Option κ} {whole actual : Finmap fun _ : κ => α} {key : κ}

theorem refl (whole : Finmap fun _ : κ => α) : Hides (fun _ : ι => none) whole whole where
  present _ _ taken := by cases taken
  absent _ _ taken := by cases taken
  unique _ _ _ taken := by cases taken
  same _ _ := rfl

theorem mem_iff (hides : Hides taken whole actual) (free : ∀ i, taken i ≠ some key) :
    key ∈ whole ↔ key ∈ actual := by
  rw [← Finmap.lookup_isSome, ← Finmap.lookup_isSome, hides.same key free]

theorem insert (hides : Hides taken whole actual) (free : ∀ i, taken i ≠ some key) (value : α) :
    Hides taken (whole.insert key value) (actual.insert key value) where
  present i other owned := by
    rw [Finmap.mem_insert]
    exact .inr (hides.present i other owned)
  absent i other owned := by
    rw [Finmap.mem_insert, not_or]
    refine ⟨?_, hides.absent i other owned⟩
    intro same
    subst same
    exact free i owned
  unique := hides.unique
  same other open' := by
    rcases eq_or_ne other key with rfl | different
    · rw [Finmap.lookup_insert, Finmap.lookup_insert]
    · rw [Finmap.lookup_insert_of_ne _ different, Finmap.lookup_insert_of_ne _ different, hides.same other open']

theorem erase (hides : Hides taken whole actual) (free : ∀ i, taken i ≠ some key) :
    Hides taken (whole.erase key) (actual.erase key) where
  present i other owned := by
    rw [Finmap.mem_erase]
    refine ⟨?_, hides.present i other owned⟩
    intro same
    subst same
    exact free i owned
  absent i other owned := by
    rw [Finmap.mem_erase, not_and]
    exact fun _ => hides.absent i other owned
  unique := hides.unique
  same other open' := by
    rcases eq_or_ne other key with rfl | different
    · rw [Finmap.lookup_erase, Finmap.lookup_erase]
    · rw [Finmap.lookup_erase_ne different, Finmap.lookup_erase_ne different, hides.same other open']

variable [DecidableEq ι] {i : ι}

omit [DecidableEq κ] in
theorem update_eq_some_iff {j : ι} {owned : Option κ} :
    Function.update taken i owned j = some key ↔ (j = i ∧ owned = some key) ∨ (j ≠ i ∧ taken j = some key) := by
  rcases eq_or_ne j i with rfl | other
  · simp
  · simp [other]

theorem take (hides : Hides taken whole actual) (free : ∀ j, taken j ≠ some key) (empty : taken i = none)
    (member : key ∈ actual) : Hides (Function.update taken i (some key)) whole (actual.erase key) where
  present j other owned := by
    rcases update_eq_some_iff.mp owned with ⟨_, mine⟩ | ⟨_, owned⟩
    · cases mine
      exact (hides.mem_iff free).mpr member
    · exact hides.present j other owned
  absent j other owned := by
    rw [Finmap.mem_erase, not_and]
    rcases update_eq_some_iff.mp owned with ⟨_, mine⟩ | ⟨_, owned⟩
    · cases mine
      exact fun different => absurd rfl different
    · exact fun _ => hides.absent j other owned
  unique j k other ownedJ ownedK := by
    rcases update_eq_some_iff.mp ownedJ with ⟨sameJ, mineJ⟩ | ⟨_, theirsJ⟩ <;>
      rcases update_eq_some_iff.mp ownedK with ⟨sameK, mineK⟩ | ⟨_, theirsK⟩
    · exact sameJ.trans sameK.symm
    · cases mineJ
      exact absurd theirsK (free k)
    · cases mineK
      exact absurd theirsJ (free j)
    · exact hides.unique j k other theirsJ theirsK
  same other open' := by
    have different : other ≠ key := by
      intro same
      subst same
      exact open' i (update_eq_some_iff.mpr (.inl ⟨rfl, rfl⟩))
    rw [Finmap.lookup_erase_ne different]
    apply hides.same other
    intro j owned
    refine open' j (update_eq_some_iff.mpr (.inr ⟨?_, owned⟩))
    intro same
    subst same
    simp [empty] at owned

theorem give (hides : Hides taken whole actual) (owned : taken i = some key) {target : κ}
    (free : ∀ j, taken j ≠ some target) (value : α) :
    Hides (Function.update taken i none) ((whole.erase key).insert target value) (actual.insert target value) where
  present j other owned' := by
    rcases update_eq_some_iff.mp owned' with ⟨_, mine⟩ | ⟨different, owned'⟩
    · cases mine
    · rw [Finmap.mem_insert, Finmap.mem_erase]
      refine .inr ⟨?_, hides.present j other owned'⟩
      intro same
      subst same
      exact different (hides.unique j i other owned' owned)
  absent j other owned' := by
    rcases update_eq_some_iff.mp owned' with ⟨_, mine⟩ | ⟨_, owned'⟩
    · cases mine
    · rw [Finmap.mem_insert, not_or]
      refine ⟨?_, hides.absent j other owned'⟩
      intro same
      subst same
      exact free j owned'
  unique j k other ownedJ ownedK := by
    rcases update_eq_some_iff.mp ownedJ with ⟨_, mine⟩ | ⟨_, ownedJ⟩
    · cases mine
    rcases update_eq_some_iff.mp ownedK with ⟨_, mine⟩ | ⟨_, ownedK⟩
    · cases mine
    exact hides.unique j k other ownedJ ownedK
  same other open' := by
    rcases eq_or_ne other target with rfl | differs
    · rw [Finmap.lookup_insert, Finmap.lookup_insert]
    rw [Finmap.lookup_insert_of_ne _ differs, Finmap.lookup_insert_of_ne _ differs]
    rcases eq_or_ne other key with rfl | different
    · rw [Finmap.lookup_erase, Finmap.lookup_eq_none.mpr (hides.absent i other owned)]
    rw [Finmap.lookup_erase_ne different]
    apply hides.same other
    intro j owned'
    refine open' j (update_eq_some_iff.mpr (.inr ⟨?_, owned'⟩))
    intro same
    subst same
    rw [owned] at owned'
    cases owned'
    exact different rfl

end Hides

end HiddenKeys
