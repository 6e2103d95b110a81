import Mathlib.Data.Finset.Card
import Mathlib.Data.Finset.Dedup
import Mathlib.Data.List.Forall2
import Mathlib.Data.List.Sort
import Mathlib.Order.Defs.LinearOrder

namespace Grouping

structure Group (τ β : Type) where
  label : τ
  items : List β
deriving DecidableEq, Repr

/-- How a list falls into groups: what an element is labelled with, which labels are the same, and the item that an
    element adds to its group, if it adds one. -/
structure Scheme (α τ κ β : Type) where
  label : α → τ
  key : τ → κ
  item : α → Option β

variable {α τ κ β : Type}

theorem getElem?_filterMap_iff {f : α → Option β} {xs : List α} {r : Nat} {b : β} :
    (xs.filterMap f)[r]? = some b ↔
      ∃ p a, xs[p]? = some a ∧ f a = some b ∧ ((xs.take p).filterMap f).length = r := by
  induction xs generalizing r with
  | nil => simp
  | cons x xs ih =>
    constructor
    · intro found
      cases here : f x with
      | none =>
        rw [List.filterMap_cons_none here] at found
        obtain ⟨p, a, place, item, row⟩ := ih.mp found
        exact ⟨p + 1, a, place, item, by simpa [here] using row⟩
      | some c =>
        rw [List.filterMap_cons_some here] at found
        cases r with
        | zero =>
          cases found
          exact ⟨0, x, rfl, here, rfl⟩
        | succ r =>
          obtain ⟨p, a, place, item, row⟩ := ih.mp found
          exact ⟨p + 1, a, place, item, by simpa [here] using row⟩
    · intro placed
      obtain ⟨p, a, place, item, row⟩ := placed
      cases p with
      | zero =>
        cases place
        rw [List.filterMap_cons_some item, ← row]
        rfl
      | succ p =>
        cases here : f x with
        | none =>
          rw [List.filterMap_cons_none here]
          exact ih.mpr ⟨p, a, place, item, by simpa [here] using row⟩
        | some c =>
          rw [List.filterMap_cons_some here]
          simp only [List.take_succ_cons, List.filterMap_cons_some here, List.length_cons] at row
          rw [← row, List.getElem?_cons_succ]
          exact ih.mpr ⟨p, a, place, item, rfl⟩

theorem forall₂_map_eq_iff {γ δ : Type} {f : γ → κ} {f' : δ → κ} {R : γ → δ → Prop} {xs : List γ} {ys : List δ}
    (related : ∀ x ∈ xs, ∀ y ∈ ys, f x = f' y → R x y) :
    List.Forall₂ (fun x y => f x = f' y ∧ R x y) xs ys ↔ xs.map f = ys.map f' := by
  induction xs generalizing ys with
  | nil => cases ys <;> simp
  | cons x xs ih =>
    cases ys with
    | nil => simp
    | cons y ys =>
      have rest := @ih ys fun x' member y' member' => related x' (by simp [member]) y' (by simp [member'])
      simp only [List.forall₂_cons, List.map_cons, List.cons.injEq, rest]
      constructor
      · intro both
        exact ⟨both.1.1, both.2⟩
      · intro both
        exact ⟨⟨both.1, related x (by simp) y (by simp) both.1⟩, both.2⟩

namespace Scheme

variable (g : Scheme α τ κ β)

def keyOf (a : α) : κ := g.key (g.label a)

theorem keys_iff_covered {xs ys : List α} :
    (∀ k, (∃ a ∈ xs, g.keyOf a = k) ↔ ∃ b ∈ ys, g.keyOf b = k) ↔
      (∀ a ∈ xs, ∃ b ∈ ys, g.keyOf b = g.keyOf a) ∧ ∀ b ∈ ys, ∃ a ∈ xs, g.keyOf a = g.keyOf b := by
  constructor
  · intro same
    exact ⟨fun a member => (same _).mp ⟨a, member, rfl⟩, fun b member => (same _).mpr ⟨b, member, rfl⟩⟩
  · intro covered k
    constructor
    · intro found
      obtain ⟨a, member, rfl⟩ := found
      exact covered.1 a member
    · intro found
      obtain ⟨b, member, rfl⟩ := found
      exact covered.2 b member

section Placing

variable [DecidableEq κ]

def itemsOf (k : κ) (xs : List α) : List β := xs.filterMap fun a => if g.keyOf a = k then g.item a else none

/-- An element goes to the last group, or opens one when its key is another one. -/
def place (groups : List (Group τ β)) (a : α) : List (Group τ β) :=
  match groups.getLast? with
  | some last =>
    if g.key last.label = g.keyOf a then groups.dropLast ++ [{ last with items := last.items ++ (g.item a).toList }]
    else groups ++ [⟨g.label a, (g.item a).toList⟩]
  | none => [⟨g.label a, (g.item a).toList⟩]

def groups (xs : List α) : List (Group τ β) := xs.foldl g.place []

@[simp] theorem groups_nil : g.groups [] = [] := rfl

theorem groups_append_singleton (xs : List α) (a : α) : g.groups (xs ++ [a]) = g.place (g.groups xs) a := by
  simp [groups]

theorem place_nil (a : α) : g.place [] a = [⟨g.label a, (g.item a).toList⟩] := rfl

variable {g}

theorem place_same {init : List (Group τ β)} {last : Group τ β} {a : α} (same : g.key last.label = g.keyOf a) :
    g.place (init ++ [last]) a = init ++ [{ last with items := last.items ++ (g.item a).toList }] := by
  simp [place, same]

theorem place_new {init : List (Group τ β)} {last : Group τ β} {a : α} (new : g.key last.label ≠ g.keyOf a) :
    g.place (init ++ [last]) a = init ++ [last] ++ [⟨g.label a, (g.item a).toList⟩] := by
  simp [place, new]

theorem groups_getLast (xs : List α) (a : α) :
    ∃ init last, g.groups (xs ++ [a]) = init ++ [last] ∧ g.key last.label = g.keyOf a := by
  rw [groups_append_singleton]
  rcases List.eq_nil_or_concat (g.groups xs) with empty | ⟨init, last, shape⟩
  · rw [empty, place_nil]
    exact ⟨[], _, rfl, rfl⟩
  · rw [shape, List.concat_eq_append]
    by_cases same : g.key last.label = g.keyOf a
    · rw [place_same same]
      exact ⟨init, _, rfl, same⟩
    · rw [place_new same]
      exact ⟨init ++ [last], _, rfl, rfl⟩

theorem itemsOf_append_same {k : κ} {a : α} (same : g.keyOf a = k) (xs : List α) :
    g.itemsOf k (xs ++ [a]) = g.itemsOf k xs ++ (g.item a).toList := by
  cases item : g.item a <;> simp [itemsOf, same, item]

theorem itemsOf_append_other {k : κ} {a : α} (other : g.keyOf a ≠ k) (xs : List α) :
    g.itemsOf k (xs ++ [a]) = g.itemsOf k xs := by
  simp [itemsOf, other]

theorem itemsOf_absent {k : κ} {xs : List α} (absent : ∀ a ∈ xs, g.keyOf a ≠ k) : g.itemsOf k xs = [] := by
  simp only [itemsOf, List.filterMap_eq_nil_iff]
  intro a member
  rw [if_neg (absent a member)]

end Placing

section Sorted

variable [LinearOrder κ] {g}

/-- The groups are those of the list: one for each key, in order, with the items of its elements. -/
structure Exact (g : Scheme α τ κ β) (xs : List α) (groups : List (Group τ β)) : Prop where
  increasing : groups.Pairwise fun first second => g.key first.label < g.key second.label
  items : ∀ group ∈ groups, group.items = g.itemsOf (g.key group.label) xs
  keys : ∀ k, (∃ group ∈ groups, g.key group.label = k) ↔ ∃ a ∈ xs, g.keyOf a = k

theorem Exact.nil : g.Exact [] [] := ⟨List.Pairwise.nil, by simp, by simp⟩

theorem Exact.append_same {xs : List α} {a : α} {init : List (Group τ β)} {last : Group τ β}
    (exact : g.Exact xs (init ++ [last])) (same : g.key last.label = g.keyOf a) :
    g.Exact (xs ++ [a]) (init ++ [{ last with items := last.items ++ (g.item a).toList }]) := by
  obtain ⟨increasing, items, keys⟩ := exact
  obtain ⟨ordered, _, below⟩ := List.pairwise_append.mp increasing
  have lower : ∀ group ∈ init, g.key group.label < g.key last.label := fun group member =>
    below group member last List.mem_cons_self
  refine ⟨List.pairwise_append.mpr ⟨ordered, List.pairwise_singleton _ _, ?_⟩, ?_, fun k => ?_⟩
  · intro group member group' single
    rw [List.mem_singleton.mp single]
    exact lower group member
  · intro group member
    rcases List.mem_append.mp member with earlier | single
    · have other : g.keyOf a ≠ g.key group.label := same ▸ (lower group earlier).ne'
      rw [itemsOf_append_other other]
      exact items group (List.mem_append_left _ earlier)
    · rw [List.mem_singleton.mp single, itemsOf_append_same same.symm, ← items last (by simp)]
  · have labels := keys k
    simp only [List.mem_append, List.mem_singleton, or_and_right, exists_or, exists_eq_left] at labels ⊢
    rw [labels, ← same]
    constructor
    · exact .inl
    · intro found
      rcases found with earlier | here
      · exact earlier
      · exact labels.mp (.inr here)

theorem Exact.append_new {xs : List α} {a : α} {groups : List (Group τ β)} (exact : g.Exact xs groups)
    (lower : ∀ group ∈ groups, g.key group.label < g.keyOf a) :
    g.Exact (xs ++ [a]) (groups ++ [⟨g.label a, (g.item a).toList⟩]) := by
  obtain ⟨increasing, items, keys⟩ := exact
  have absent : ∀ b ∈ xs, g.keyOf b ≠ g.keyOf a := by
    intro b member same
    obtain ⟨group, listed, key⟩ := (keys (g.keyOf a)).mpr ⟨b, member, same⟩
    exact (lower group listed).ne key
  refine ⟨List.pairwise_append.mpr ⟨increasing, List.pairwise_singleton _ _, ?_⟩, ?_, fun k => ?_⟩
  · intro group member group' single
    rw [List.mem_singleton.mp single]
    exact lower group member
  · intro group member
    rcases List.mem_append.mp member with earlier | single
    · rw [itemsOf_append_other (lower group earlier).ne']
      exact items group earlier
    · rw [List.mem_singleton.mp single, show g.key (g.label a) = g.keyOf a from rfl, itemsOf_append_same rfl,
        itemsOf_absent absent, List.nil_append]
  · simp only [List.mem_append, List.mem_singleton, or_and_right, exists_or, exists_eq_left, keys k]
    rfl

theorem Exact.lower_of_new {xs : List α} {a : α} {init : List (Group τ β)} {last : Group τ β}
    (exact : g.Exact xs (init ++ [last])) (most : ∀ b ∈ xs, g.keyOf b ≤ g.keyOf a)
    (new : g.key last.label ≠ g.keyOf a) : ∀ group ∈ init ++ [last], g.key group.label < g.keyOf a := by
  have key_le : ∀ group ∈ init ++ [last], g.key group.label ≤ g.keyOf a := by
    intro group member
    obtain ⟨b, listed, key⟩ := (exact.keys (g.key group.label)).mp ⟨group, member, rfl⟩
    exact key ▸ most b listed
  have last_lt : g.key last.label < g.keyOf a := lt_of_le_of_ne (key_le last (by simp)) new
  intro group member
  rcases List.mem_append.mp member with before | single
  · have lower := (List.pairwise_append.mp exact.increasing).2.2 group before last List.mem_cons_self
    exact lower.trans last_lt
  · rw [List.mem_singleton.mp single]
    exact last_lt

/-- An ordered list falls into one group for each key. -/
theorem groups_exact {xs : List α} (sorted : xs.Pairwise fun a b => g.keyOf a ≤ g.keyOf b) :
    g.Exact xs (g.groups xs) := by
  induction xs using List.reverseRecOn with
  | nil => exact .nil
  | append_singleton xs a ih =>
    obtain ⟨earlier, _, below⟩ := List.pairwise_append.mp sorted
    have most : ∀ b ∈ xs, g.keyOf b ≤ g.keyOf a := fun b member => below b member a List.mem_cons_self
    have exact := ih earlier
    rw [groups_append_singleton]
    rcases List.eq_nil_or_concat (g.groups xs) with empty | ⟨init, last, shape⟩
    · rw [empty] at exact ⊢
      exact exact.append_new (by simp)
    · rw [List.concat_eq_append] at shape
      rw [shape] at exact ⊢
      by_cases same : g.key last.label = g.keyOf a
      · rw [place_same same]
        exact exact.append_same same
      · rw [place_new same]
        exact exact.append_new (exact.lower_of_new most same)

theorem Exact.keys_eq_iff {xs ys : List α} {first second : List (Group τ β)} (exact : g.Exact xs first)
    (exact' : g.Exact ys second) : first.map (g.key ·.label) = second.map (g.key ·.label) ↔
      ∀ k, (∃ a ∈ xs, g.keyOf a = k) ↔ ∃ b ∈ ys, g.keyOf b = k := by
  have mem {groups : List (Group τ β)} (k : κ) :
      k ∈ groups.map (g.key ·.label) ↔ ∃ group ∈ groups, g.key group.label = k := List.mem_map
  constructor
  · intro same k
    rw [← exact.keys k, ← exact'.keys k, ← mem, ← mem, same]
  · intro same
    have sorted := (List.pairwise_map.mpr exact.increasing).sortedLT
    have sorted' := (List.pairwise_map.mpr exact'.increasing).sortedLT
    apply sorted.eq_of_mem_iff sorted'
    intro k
    rw [mem, mem, exact.keys k, exact'.keys k]
    exact same k

def keysBelow (g : Scheme α τ κ β) (xs : List α) (k : κ) : Nat := ((xs.map g.keyOf).toFinset.filter (· < k)).card

theorem Exact.keysBelow_eq {xs : List α} {groups : List (Group τ β)} (exact : g.Exact xs groups) {s : Nat}
    {group : Group τ β} (found : groups[s]? = some group) : g.keysBelow xs (g.key group.label) = s := by
  obtain ⟨bound, rfl⟩ := List.getElem?_eq_some_iff.mp found
  have order {i j : Nat} (i_lt : i < groups.length) (j_lt : j < groups.length) (less : i < j) :
      g.key groups[i].label < g.key groups[j].label :=
    List.pairwise_iff_getElem.mp exact.increasing i j i_lt j_lt less
  have earlier : (xs.map g.keyOf).toFinset.filter (· < g.key groups[s].label) =
      ((groups.take s).map (g.key ·.label)).toFinset := by
    ext k
    simp only [Finset.mem_filter, List.mem_toFinset, List.mem_map]
    rw [← exact.keys k]
    constructor
    · intro below
      obtain ⟨⟨other, member, rfl⟩, less⟩ := below
      obtain ⟨i, i_lt, rfl⟩ := List.mem_iff_getElem.mp member
      have before : i < s := by
        by_contra after
        rcases Nat.lt_or_eq_of_le (Nat.not_lt.mp after) with later | same
        · exact lt_asymm less (order bound i_lt later)
        · subst same
          exact lt_irrefl _ less
      exact ⟨groups[i], List.mem_take_iff_getElem.mpr ⟨i, by omega, rfl⟩, rfl⟩
    · intro taken
      obtain ⟨other, member, rfl⟩ := taken
      obtain ⟨i, i_lt, rfl⟩ := List.mem_take_iff_getElem.mp member
      exact ⟨⟨groups[i], List.getElem_mem (by omega), rfl⟩, order (by omega) bound (by omega)⟩
  have distinct : ((groups.take s).map (g.key ·.label)).Nodup := by
    apply List.Pairwise.imp ne_of_lt
    rw [List.pairwise_map]
    exact exact.increasing.sublist (List.take_sublist s groups)
  rw [keysBelow, earlier, List.toFinset_card_of_nodup distinct, List.length_map, List.length_take]
  omega

theorem Exact.getElem?_items_iff {xs : List α} {groups : List (Group τ β)} (exact : g.Exact xs groups) {s r : Nat}
    {b : β} : (∃ group, groups[s]? = some group ∧ group.items[r]? = some b) ↔
      ∃ p a, xs[p]? = some a ∧ g.item a = some b ∧ g.keysBelow xs (g.keyOf a) = s ∧
        (g.itemsOf (g.keyOf a) (xs.take p)).length = r := by
  constructor
  · intro shown
    obtain ⟨group, found, row⟩ := shown
    rw [exact.items group (List.mem_of_getElem? found)] at row
    obtain ⟨p, a, place, item, count⟩ := getElem?_filterMap_iff.mp row
    split at item
    · rename_i key
      exact ⟨p, a, place, item, key ▸ exact.keysBelow_eq found, key ▸ count⟩
    · cases item
  · intro placed
    obtain ⟨p, a, place, item, below, count⟩ := placed
    obtain ⟨group, member, key⟩ := (exact.keys (g.keyOf a)).mpr ⟨a, List.mem_of_getElem? place, rfl⟩
    obtain ⟨i, found⟩ := List.mem_iff_getElem?.mp member
    have same := exact.keysBelow_eq found
    rw [key, below] at same
    subst same
    refine ⟨group, found, ?_⟩
    rw [exact.items group member, key]
    exact getElem?_filterMap_iff.mpr ⟨p, a, place, by rw [if_pos rfl, item], count⟩

end Sorted

end Scheme

end Grouping
