import Mathlib.Order.Filter.AtTopBot.Basic
import Mathlib.Order.Filter.Finite
import ArRobotCode.Scratch.WorkspaceMoves

namespace ArRobotCode.Scratch.Workspace

open ParentForest Trapping Entry Filter

/-- Some blocks have gone, with their scripts, and the others are as they were. -/
structure Removed (lost : String → Prop) (w w' : Workspace) : Prop where
  gone : ∀ id, lost id → w'.blocks id = none
  kept : ∀ id, ¬ lost id → w'.blocks id = w.blocks id
  scripts : ∀ id, id ∈ w'.scripts ↔ id ∈ w.scripts ∧ ¬ lost id
  order : w'.scripts.Sublist w.scripts
  drawn : w'.drawn = w.drawn

section Removals

variable {w w' w'' : Workspace} {holder : String → Option String} {x : String} {one two : String → Prop}

theorem Removed.refl (w : Workspace) : Removed (fun _ => False) w w :=
  ⟨fun _ no => no.elim, fun _ _ => rfl, by simp, .refl _, rfl⟩

theorem Removed.trans (first : Removed one w w') (second : Removed two w' w'') :
    Removed (fun id => one id ∨ two id) w w'' := by
  refine ⟨fun id either => ?_, fun id neither => ?_, fun id => ?_, second.order.trans first.order,
    second.drawn.trans first.drawn⟩
  · by_cases here : two id
    · exact second.gone id here
    · rw [second.kept id here]
      exact first.gone id (either.resolve_right here)
  · rw [second.kept id fun here => neither (.inr here), first.kept id fun here => neither (.inl here)]
  · rw [second.scripts, first.scripts]
    simp [and_assoc, not_or]

theorem Removed.congr (removed : Removed one w w') (same : ∀ id, one id ↔ two id) : Removed two w w' := by
  have equal : one = two := funext fun id => propext (same id)
  rwa [← equal]

open Classical in
theorem Removed.unique (noDuplicates : w.scripts.Nodup) (first : Removed one w w') (second : Removed one w w'') :
    w' = w'' := by
  have blocks : w'.blocks = w''.blocks := by
    funext id
    by_cases gone : one id
    · rw [first.gone id gone, second.gone id gone]
    · rw [first.kept id gone, second.kept id gone]
  have filtered : ∀ {v : Workspace}, Removed one w v → v.scripts = w.scripts.filter fun id => ¬ one id := by
    intro v removed
    have stay : v.scripts.filter (fun id => ¬ one id) = v.scripts := by
      apply List.filter_eq_self.mpr
      intro id member
      simpa using ((removed.scripts id).mp member).2
    have shorter := removed.order.filter fun id => ¬ one id
    rw [stay] at shorter
    apply shorter.eq_of_length
    apply List.Perm.length_eq
    apply (List.perm_ext_iff_of_nodup (removed.order.nodup noDuplicates) (noDuplicates.filter _)).mpr
    intro id
    rw [removed.scripts, List.mem_filter]
    simp
  obtain ⟨_, _, _⟩ := w'
  obtain ⟨_, _, _⟩ := w''
  rw [Workspace.mk.injEq]
  exact ⟨blocks, (filtered first).trans (filtered second).symm, first.drawn.trans second.drawn.symm⟩

theorem removed_self (noDuplicates : w.scripts.Nodup) (x : String) : Removed (· = x) w
    { w.deleteScript x with blocks := Function.update (w.deleteScript x).blocks x none } := by
  refine ⟨fun id same => ?_, fun id other => ?_, fun id => ?_, List.erase_sublist, rfl⟩
  · rw [same]
    exact Function.update_self _ _ _
  · exact (Function.update_of_ne other _ _).trans (update_other other)
  · change id ∈ w.scripts.erase x ↔ _
    rw [noDuplicates.mem_erase_iff, and_comm]

theorem Linked.children_present (linked : w.Linked holder) {e : Entry} (found : w.blocks x = some e) {c : String} :
    c ∈ e.children ↔ holder c = some x := by
  rw [linked.linked, childrenOf_some found]

theorem removes_siblings {op : String → Edit Unit} (acyclic : Acyclic holder)
    (each : ∀ c, holder c = some x → ∀ v : Workspace, v.scripts.Nodup →
      (∀ id, Below holder c id → v.blocks id = w.blocks id) →
      ∃ v', (op c).run v = .ok () v' ∧ Removed (Below holder c) v v')
    (cs : List String) (siblings : ∀ c ∈ cs, holder c = some x) (once : cs.Nodup) (v : Workspace)
    (noDuplicates : v.scripts.Nodup) (whole : ∀ c ∈ cs, ∀ id, Below holder c id → v.blocks id = w.blocks id) :
    ∃ v', (runAll op cs).run v = .ok () v' ∧ Removed (fun id => ∃ c ∈ cs, Below holder c id) v v' := by
  induction cs generalizing v with
  | nil => exact ⟨v, rfl, (Removed.refl v).congr (by simp)⟩
  | cons c rest ih =>
    obtain ⟨apart, once⟩ := List.nodup_cons.mp once
    have named := siblings c List.mem_cons_self
    obtain ⟨v₁, ran, removed⟩ := each c named v noDuplicates (whole c List.mem_cons_self)
    have whole' : ∀ d ∈ rest, ∀ id, Below holder d id → v₁.blocks id = w.blocks id := by
      intro d member id below
      have differ : d ≠ c := fun same => apart (same ▸ member)
      have sibling := siblings d (List.mem_cons_of_mem _ member)
      rw [removed.kept id (acyclic.siblings_apart sibling named differ below)]
      exact whole d (List.mem_cons_of_mem _ member) id below
    obtain ⟨v₂, ran', removed'⟩ := ih (fun d member => siblings d (List.mem_cons_of_mem _ member)) once v₁
      (removed.order.nodup noDuplicates) whole'
    refine ⟨v₂, runAll_cons_ok.mpr ⟨v₁, ran, ran'⟩, (removed.trans removed').congr fun id => ?_⟩
    simp

/-- With enough fuel the recursion ends: it takes the block away with everything inside it, and nothing else. -/
theorem Linked.deleteBlock (linked : w.Linked holder) (present : (w.blocks x).isSome) : ∀ᶠ fuel in atTop,
    ∀ v : Workspace, v.scripts.Nodup → (∀ id, Below holder x id → v.blocks id = w.blocks id) →
      ∃ v', (deleteBlock fuel x).run v = .ok () v' ∧ Removed (Below holder x) v v' := by
  induction x using (linked.acyclic.downward linked.finite_holder).induction with
  | _ x ih =>
    obtain ⟨e, found⟩ := Option.isSome_iff_exists.mp present
    have children : ∀ᶠ fuel in atTop, ∀ c ∈ {c | c ∈ e.children}, ∀ v : Workspace, v.scripts.Nodup →
        (∀ id, Below holder c id → v.blocks id = w.blocks id) →
        ∃ v', (Workspace.deleteBlock fuel c).run v = .ok () v' ∧ Removed (Below holder c) v v' := by
      apply (eventually_all_finite e.children.finite_toSet).mpr
      intro c member
      have named := (linked.children_present found).mp member
      exact ih c named (linked.held named).1
    have next : ∀ᶠ fuel in atTop, 0 < fuel := eventually_gt_atTop 0
    filter_upwards [next, (tendsto_sub_atTop_nat 1).eventually children] with fuel positive children v
      noDuplicates whole
    obtain ⟨fuel, rfl⟩ := Nat.exists_eq_succ_of_ne_zero positive.ne'
    rw [Nat.succ_sub_one] at children
    have here : v.blocks x = some e := by rw [whole x .refl, found]
    obtain ⟨v₁, ran, removed⟩ := removes_siblings linked.acyclic (x := x)
      (fun c named => children c ((linked.children_present found).mpr named)) e.children
      (fun c member => (linked.children_present found).mp member)
      (by rw [← childrenOf_some found]; exact linked.once x) v noDuplicates
      (fun c member id below => whole id (.head ((linked.children_present found).mp member) below))
    refine ⟨_, ?_, (removed.trans (removed_self (removed.order.nodup noDuplicates) x)).congr fun id => ?_⟩
    · simp [Workspace.deleteBlock, here, ran, EStateM.run_bind, modify, -bind_pure_comp]
    · rw [below_iff_head]
      constructor
      · intro either
        rcases either with ⟨c, member, below⟩ | same
        · exact .inr ⟨c, (linked.children_present found).mp member, below⟩
        · exact .inl same
      · intro either
        rcases either with same | ⟨c, named, below⟩
        · exact .inr same
        · exact .inl ⟨c, (linked.children_present found).mpr named, below⟩

theorem shades_mem_children {e : Entry} (shades : e.Shades x) : x ∈ e.children := by
  obtain ⟨input, member, shadow⟩ := shades
  rw [children]
  apply List.mem_append_right
  apply List.mem_flatMap.mpr
  refine ⟨input, member, ?_⟩
  by_cases same : input.2.shadow = input.2.block
  · simp [Slot.held, ← same, shadow]
  · rw [shadow] at same
    simp [Slot.held, same, shadow]

open Classical in
theorem Coherent.removed (coherent : w.Coherent holder) (root : holder x = none)
    (removed : Removed (Below holder x) w w') :
    w'.Coherent fun id => if Below holder x id then none else holder id := by
  have up : ∀ {p c}, holder c = some p → ¬ Below holder x c → ¬ Below holder x p :=
    fun named outside inside => outside (.tail inside named)
  have down : ∀ {p c}, holder c = some p → ¬ Below holder x p → ¬ Below holder x c := by
    intro p c named outside inside
    rcases below_iff_tail.mp inside with same | ⟨q, named', rest⟩
    · rw [same, root] at named
      cases named
    · rw [named] at named'
      cases named'
      exact outside rest
  have childrenGone : ∀ p, Below holder x p → w'.childrenOf p = [] := by
    intro p inside
    simp [childrenOf, removed.gone p inside]
  have childrenKept : ∀ p, ¬ Below holder x p → w'.childrenOf p = w.childrenOf p := by
    intro p outside
    rw [childrenOf, removed.kept p outside, childrenOf]
  have outside : ∀ {p e}, w'.blocks p = some e → ¬ Below holder x p := by
    intro p e found inside
    rw [removed.gone p inside] at found
    cases found
  have old : ∀ {p e}, w'.blocks p = some e → w.blocks p = some e := by
    intro p e found
    rwa [removed.kept p (outside found)] at found
  have parents : ∀ id, ¬ Below holder x id → w'.parents id = w.parents id := by
    intro id outside
    rw [Workspace.parents, removed.kept id outside, Workspace.parents]
  have isRoot : ∀ id, w'.IsRoot id ↔ w.IsRoot id ∧ ¬ Below holder x id := by
    intro id
    by_cases inside : Below holder x id
    · simp [IsRoot, removed.gone id inside, inside]
    · simp [IsRoot, removed.kept id inside, parents id inside, inside]
  have linked : w'.Linked fun id => if Below holder x id then none else holder id := by
    refine ⟨fun p c => ?_, fun p => ?_, fun p e found => coherent.names p e (old found), fun p c member => ?_,
      fun p e c found shades => ?_, coherent.acyclic.mono fun c p named => ?_,
      coherent.finite.subset fun id there => ?_⟩
    · by_cases inside : Below holder x c
      · simp only [if_pos inside, reduceCtorEq, false_iff]
        intro member
        by_cases above : Below holder x p
        · simp [childrenGone p above] at member
        · rw [childrenKept p above, ← coherent.linked] at member
          exact down member above inside
      · simp only [if_neg inside]
        by_cases above : Below holder x p
        · simp only [childrenGone p above, List.not_mem_nil, iff_false]
          exact fun named => up named inside above
        · rw [childrenKept p above, coherent.linked]
    · by_cases above : Below holder x p
      · simp [childrenGone p above]
      · rw [childrenKept p above]
        exact coherent.once p
    · obtain ⟨e, found, _⟩ := some_of_childrenOf member
      have above := outside found
      rw [childrenKept p above] at member
      rw [removed.kept c (down ((coherent.linked p c).mpr member) above)]
      exact coherent.present p c member
    · have named := (coherent.children_present (old found)).mp (shades_mem_children shades)
      obtain ⟨s, there, shadow⟩ := coherent.shadows p e c (old found) shades
      exact ⟨s, by rw [removed.kept c (down named (outside found))]; exact there, shadow⟩
    · split at named
      · cases named
      · exact named
    · obtain ⟨e, found⟩ := Option.isSome_iff_exists.mp there
      exact Option.isSome_iff_exists.mpr ⟨e, old found⟩
  refine ⟨linked, fun id => ?_, fun id => ?_, removed.order.nodup coherent.noDuplicates,
    fun id e found => coherent.topLevel id e (old found)⟩
  · unfold Placed
    by_cases inside : Below holder x id
    · simp [Workspace.parents, removed.gone id inside, inside]
    · simp only [if_neg inside, parents id inside]
      rcases coherent.placed id with same | ⟨none, p, e, found, obscures⟩
      · exact .inl same
      · have whole := obscures
        obtain ⟨input, member, shadow, _⟩ := obscures
        have named := (coherent.children_present found).mp (shades_mem_children ⟨input, member, shadow⟩)
        exact .inr ⟨none, p, e, by rw [removed.kept p (up named inside)]; exact found, whole⟩
  · rw [removed.scripts, coherent.scripts, isRoot]

theorem Coherent.deleteBlock (coherent : w.Coherent holder) (present : (w.blocks x).isSome) (block : ¬ w.IsShadow x)
    (root : w.parents x = none) : ∃ w' holder', w'.Coherent holder' ∧ Removed (w.Inside x) w w' ∧
      ∃ N, ∀ fuel ≥ N, (deleteBlock fuel x).run w = .ok () w' := by
  have unheld : holder x = none := by rw [← coherent.toLinked.parents_eq (coherent.placed x) block, root]
  obtain ⟨N, enough⟩ := eventually_atTop.mp (coherent.toLinked.deleteBlock present)
  obtain ⟨w', _, removed⟩ := enough N le_rfl w coherent.noDuplicates fun _ _ => rfl
  refine ⟨w', _, coherent.removed unheld removed, removed.congr fun id => coherent.toLinked.inside_iff.symm, N,
    fun fuel most => ?_⟩
  obtain ⟨w'', ran, removed'⟩ := enough fuel most w coherent.noDuplicates fun _ _ => rfl
  rw [ran, removed'.unique coherent.noDuplicates removed]

end Removals

section Tops

variable {w : Workspace} {holder : String → Option String} {x r : String}

theorem Coherent.acyclic_parents (coherent : w.Coherent holder) : Acyclic w.parents := by
  apply coherent.acyclic.mono
  intro c p named
  rcases coherent.placed c with same | ⟨none, _⟩
  · exact same ▸ named
  · rw [none] at named
    cases named

theorem Coherent.run_topOf (coherent : w.Coherent holder) (present : (w.blocks x).isSome) :
    ∃ N r, Below w.parents r x ∧ w.IsRoot r ∧ ∀ fuel ≥ N, w.topOf fuel x = .ok r := by
  induction x using coherent.acyclic_parents.induction with
  | _ x ih =>
    obtain ⟨e, found⟩ := Option.isSome_iff_exists.mp present
    cases named : e.parent with
    | none =>
      refine ⟨1, x, .refl, ⟨present, by rw [parents_some found, named]⟩, fun fuel most => ?_⟩
      obtain ⟨fuel, rfl⟩ := Nat.exists_eq_add_of_le most
      rw [Nat.add_comm]
      simp [topOf, found, named]
      rfl
    | some p =>
      have parent : w.parents x = some p := by rw [parents_some found, named]
      have held : holder x = some p := by
        rcases coherent.placed x with same | ⟨none, _⟩
        · exact same ▸ parent
        · rw [none] at parent
          cases parent
      obtain ⟨N, r, below, root, enough⟩ := ih p parent (coherent.toLinked.held held).2
      refine ⟨N + 1, r, .tail below parent, root, fun fuel most => ?_⟩
      obtain ⟨fuel, rfl⟩ := Nat.exists_eq_add_of_le most
      have same : N + 1 + fuel = (N + fuel) + 1 := by omega
      rw [same]
      simp only [topOf, found, named]
      exact enough (N + fuel) (Nat.le_add_right _ _)

end Tops

end ArRobotCode.Scratch.Workspace
