import ArRobotCode.Scratch.WorkspaceCreates

namespace ArRobotCode.Scratch

open ParentForest

namespace EditorTree

def occupants (target shadow : EditorTree .stack) : List (EditorTree .stack) :=
  if target.head?.isSome then target :: (if target.startsWithShadow then [] else [shadow]) else []

section Roots

variable {layer : Layer} {name : String} {statement : Bool} {target shadow : EditorTree .stack}
    {rest : EditorTree .inputs}

theorem ids_input :
    (input name statement target shadow rest).ids = (occupants target shadow).flatMap ids ++ rest.ids := by
  unfold occupants
  cases first : target.head? <;> cases own : target.startsWithShadow <;> simp [ids, first, own]

theorem roots_input :
    (input name statement target shadow rest).roots = (occupants target shadow).flatMap roots ++ rest.roots := by
  unfold occupants
  cases first : target.head? <;> cases own : target.startsWithShadow <;> simp [roots, first, own]

theorem head?_roots (tree : EditorTree .stack) : (tree.head?.map (·.id)).toList = tree.roots := by
  cases tree <;> rfl

theorem roots_sublist (tree : EditorTree layer) : tree.roots.Sublist tree.ids := by
  induction tree with
  | nothing => exact .refl _
  | block data inputs next _ _ => exact (List.nil_sublist _).cons_cons data.id
  | noInputs => exact .refl _
  | input name statement target shadow rest ihTarget ihShadow ihRest =>
    rw [roots_input, ids_input]
    refine List.Sublist.append ?_ ihRest
    unfold occupants
    cases target.head? with
    | none => exact .refl _
    | some first =>
      cases target.startsWithShadow with
      | false => simpa using ihTarget.append ihShadow
      | true => simpa using ihTarget

theorem held_own (id : String) : (⟨some id, some id⟩ : Slot).held = [id] := by
  simp [Slot.held]

theorem held_bare (id : String) : (⟨some id, none⟩ : Slot).held = [id] := by
  simp [Slot.held]

theorem held_both {id shadow : String} (apart : shadow ≠ id) : (⟨some id, some shadow⟩ : Slot).held = [id, shadow] := by
  simp [Slot.held, apart]

theorem slots_held (tree : EditorTree layer) (inputs : layer = .inputs) (distinct : tree.ids.Nodup) :
    (tree.slots.flatMap fun input => input.2.held) = tree.roots := by
  induction tree with
  | nothing => cases inputs
  | block _ _ _ _ _ => cases inputs
  | noInputs => rfl
  | input name statement target shadow rest _ _ ih =>
    rw [ids_input] at distinct
    obtain ⟨distinctHere, distinctRest, _⟩ := List.nodup_append.mp distinct
    have inner := ih rfl distinctRest
    rw [roots_input]
    cases target with
    | nothing => exact inner
    | block data dataInputs next =>
      cases own : data.isShadow with
      | true => simp [slots, roots, occupants, head?, startsWithShadow, own, inner, held_own]
      | false =>
        cases shadow with
        | nothing => simp [slots, roots, occupants, head?, startsWithShadow, own, inner, held_bare]
        | block shadowData shadowInputs shadowNext =>
          have apart : shadowData.id ≠ data.id := by
            intro same
            simp [occupants, head?, startsWithShadow, own, ids, same] at distinctHere
          simp [slots, roots, occupants, head?, startsWithShadow, own, inner, held_both apart]

theorem link_children {inputs : EditorTree .inputs} (next : EditorTree .stack) (distinct : inputs.ids.Nodup)
    (entry : Entry) :
    (inputs.link next entry).children = next.roots ++ inputs.roots := by
  unfold Entry.children link
  rw [head?_roots, slots_held inputs rfl distinct]

end Roots

section Entries

variable [Host] {layer : Layer} {q c p : String} {e : Entry}

theorem entries_input {name : String} {statement : Bool} {target shadow : EditorTree .stack}
    {rest : EditorTree .inputs} :
    (input name statement target shadow rest).entries q =
      (occupants target shadow).flatMap (·.entries q) ++ rest.entries q := by
  unfold occupants
  cases first : target.head? <;> cases own : target.startsWithShadow <;> simp [entries, first, own]

end Entries

end EditorTree

namespace Workspace

/-- New blocks that fit together, where the outermost ones have the given parent. -/
structure Under (blocks : List (String × Entry)) (roots : List String) (parent : Option String) : Prop where
  outer : ∀ c ∈ roots, ∃ e, (c, e) ∈ blocks ∧ e.parent = parent
  up : ∀ c e, (c, e) ∈ blocks → c ∈ roots ∧ e.parent = parent ∨
    ∃ p e', e.parent = some p ∧ (p, e') ∈ blocks ∧ c ∈ e'.children
  down : ∀ p e c, (p, e) ∈ blocks → c ∈ e.children → ∃ e', (c, e') ∈ blocks ∧ e'.parent = some p
  once : ∀ p e, (p, e) ∈ blocks → e.children.Nodup
  names : ∀ p e, (p, e) ∈ blocks → (e.inputs.map (·.1)).Nodup
  shadows : ∀ p e c, (p, e) ∈ blocks → e.Shades c → ∃ s, (c, s) ∈ blocks ∧ s.shadow = true
  topLevel : ∀ c e, (c, e) ∈ blocks → (e.topLevel = true ↔ e.parent = none)
  acyclic : ∀ parents : String → Option String, (∀ c e, (c, e) ∈ blocks → parents c = e.parent) →
    (∀ p, parent = some p → Acc (IsParent parents) p) → ∀ c e, (c, e) ∈ blocks → Acc (IsParent parents) c

section Assembly

variable {blocks blocks' : List (String × Entry)} {roots roots' : List String} {parent : Option String} {id : String}
  {e : Entry}

theorem Under.nil (parent : Option String) : Under [] [] parent := by
  constructor <;> simp

theorem Under.append (one : Under blocks roots parent) (two : Under blocks' roots' parent) :
    Under (blocks ++ blocks') (roots ++ roots') parent := by
  constructor
  · intro c member
    rcases List.mem_append.mp member with left | right
    · obtain ⟨e, there, named⟩ := one.outer c left
      exact ⟨e, List.mem_append_left _ there, named⟩
    · obtain ⟨e, there, named⟩ := two.outer c right
      exact ⟨e, List.mem_append_right _ there, named⟩
  · intro c e member
    rcases List.mem_append.mp member with left | right
    · rcases one.up c e left with ⟨root, named⟩ | ⟨p, e', named, there, child⟩
      · exact .inl ⟨List.mem_append_left _ root, named⟩
      · exact .inr ⟨p, e', named, List.mem_append_left _ there, child⟩
    · rcases two.up c e right with ⟨root, named⟩ | ⟨p, e', named, there, child⟩
      · exact .inl ⟨List.mem_append_right _ root, named⟩
      · exact .inr ⟨p, e', named, List.mem_append_right _ there, child⟩
  · intro p e c member child
    rcases List.mem_append.mp member with left | right
    · obtain ⟨e', there, named⟩ := one.down p e c left child
      exact ⟨e', List.mem_append_left _ there, named⟩
    · obtain ⟨e', there, named⟩ := two.down p e c right child
      exact ⟨e', List.mem_append_right _ there, named⟩
  · exact fun p e member => (List.mem_append.mp member).elim (one.once p e) (two.once p e)
  · exact fun p e member => (List.mem_append.mp member).elim (one.names p e) (two.names p e)
  · intro p e c member shades
    rcases List.mem_append.mp member with left | right
    · obtain ⟨s, there, shadow⟩ := one.shadows p e c left shades
      exact ⟨s, List.mem_append_left _ there, shadow⟩
    · obtain ⟨s, there, shadow⟩ := two.shadows p e c right shades
      exact ⟨s, List.mem_append_right _ there, shadow⟩
  · exact fun c e member => (List.mem_append.mp member).elim (one.topLevel c e) (two.topLevel c e)
  · intro parents agree above c e member
    rcases List.mem_append.mp member with left | right
    · exact one.acyclic parents (fun c e there => agree c e (List.mem_append_left _ there)) above c e left
    · exact two.acyclic parents (fun c e there => agree c e (List.mem_append_right _ there)) above c e right

theorem Under.cons (inner : Under blocks roots (some id)) (children : ∀ c, c ∈ e.children ↔ c ∈ roots)
    (once : e.children.Nodup) (names : (e.inputs.map (·.1)).Nodup)
    (shadows : ∀ c, e.Shades c → ∃ s, (c, s) ∈ blocks ∧ s.shadow = true)
    (topLevel : e.topLevel = true ↔ e.parent = none) : Under ((id, e) :: blocks) [id] e.parent := by
  have later : ∀ {c e'}, (c, e') ∈ blocks → (c, e') ∈ (id, e) :: blocks := fun there => List.mem_cons_of_mem _ there
  have first : ∀ {c e'}, (c, e') ∈ (id, e) :: blocks → c = id ∧ e' = e ∨ (c, e') ∈ blocks := by
    intro c e' member
    simpa using member
  constructor
  · intro c member
    rw [List.mem_singleton.mp member]
    exact ⟨e, List.mem_cons_self, rfl⟩
  · intro c e' member
    rcases first member with ⟨rfl, rfl⟩ | inside
    · exact .inl ⟨List.mem_singleton_self _, rfl⟩
    · rcases inner.up c e' inside with ⟨root, named⟩ | ⟨p, e'', named, there, child⟩
      · exact .inr ⟨id, e, named, List.mem_cons_self, (children c).mpr root⟩
      · exact .inr ⟨p, e'', named, later there, child⟩
  · intro p e' c member child
    rcases first member with ⟨rfl, rfl⟩ | inside
    · obtain ⟨e'', there, named⟩ := inner.outer c ((children c).mp child)
      exact ⟨e'', later there, named⟩
    · obtain ⟨e'', there, named⟩ := inner.down p e' c inside child
      exact ⟨e'', later there, named⟩
  · intro p e' member
    rcases first member with ⟨_, rfl⟩ | inside
    · exact once
    · exact inner.once p e' inside
  · intro p e' member
    rcases first member with ⟨_, rfl⟩ | inside
    · exact names
    · exact inner.names p e' inside
  · intro p e' c member shades
    have found : ∃ s, (c, s) ∈ blocks ∧ s.shadow = true := by
      rcases first member with ⟨_, rfl⟩ | inside
      · exact shadows c shades
      · exact inner.shadows p e' c inside shades
    obtain ⟨s, there, shadow⟩ := found
    exact ⟨s, later there, shadow⟩
  · intro c e' member
    rcases first member with ⟨_, rfl⟩ | inside
    · exact topLevel
    · exact inner.topLevel c e' inside
  · intro parents agree above c e' member
    have own : Acc (IsParent parents) id := by
      refine ⟨id, fun p named => above p ?_⟩
      rw [← named, agree id e List.mem_cons_self]
    rcases first member with ⟨rfl, _⟩ | inside
    · exact own
    · apply inner.acyclic parents (fun c e there => agree c e (later there)) _ c e' inside
      intro p same
      cases same
      exact own

theorem Under.piece (whole : Under blocks roots none) (distinct : (blocks.map (·.1)).Nodup) : Piece blocks := by
  refine ⟨distinct, fun c e p member named => ?_, whole.down, whole.once, whole.names, whole.shadows,
    whole.topLevel, ?_⟩
  · rcases whole.up c e member with ⟨_, none⟩ | ⟨q, e', named', there, child⟩
    · rw [none] at named
      cases named
    · rw [named] at named'
      cases named'
      exact ⟨e', there, child⟩
  · intro parents agree
    exact whole.acyclic parents agree (by simp)

end Assembly

end Workspace

namespace EditorTree

open Workspace

section Pieces

variable [Host] {layer : Layer} {q c : String}

theorem slots_shadows (tree : EditorTree layer) (wellFormed : tree.WellFormed) {name : String} {slot : Slot}
    (member : (name, slot) ∈ tree.slots) (shadow : slot.shadow = some c) :
    ∃ s, (c, s) ∈ tree.entries q ∧ s.shadow = true := by
  induction tree with
  | nothing => cases member
  | block _ _ _ _ _ => cases member
  | noInputs => cases member
  | input name' statement target shade rest _ _ ih =>
    obtain ⟨shadows, _, _, restFormed⟩ := wellFormed
    have later : (name, slot) ∈ rest.slots → ∃ s, (c, s) ∈ (input name' statement target shade rest).entries q ∧
        s.shadow = true := by
      intro inside
      obtain ⟨s, there, shadowed⟩ := ih restFormed inside
      exact ⟨s, by rw [entries_input]; exact List.mem_append_right _ there, shadowed⟩
    cases target with
    | nothing => exact later member
    | block data dataInputs next =>
      simp only [slots, head?, List.mem_cons, Prod.mk.injEq] at member
      rcases member with ⟨_, rfl⟩ | inside
      · rw [entries_input]
        cases own : data.isShadow with
        | true =>
          simp only [own, if_true, Option.some.injEq] at shadow
          subst shadow
          refine ⟨_, List.mem_append_left _ (List.mem_flatMap.mpr ⟨_, List.mem_cons_self, List.mem_cons_self⟩), own⟩
        | false =>
          cases shade with
          | nothing => simp [own] at shadow
          | block shadowData shadowInputs shadowNext =>
            simp only [own, Bool.false_eq_true, if_false, Option.map_some, Option.some.injEq] at shadow
            subst shadow
            refine ⟨_, List.mem_append_left _ (List.mem_flatMap.mpr
              ⟨block shadowData shadowInputs shadowNext, ?_, List.mem_cons_self⟩), shadows shadowData rfl⟩
            simp [occupants, head?, startsWithShadow, own]
      · exact later inside

theorem under_block {inputs : EditorTree .inputs} {next : EditorTree .stack} (id : String)
    (distinctNames : inputs.inputNames.Nodup) (inputsFormed : inputs.WellFormed)
    (distinct : (inputs.ids ++ next.ids).Nodup) (underInputs : Under (inputs.entries id) inputs.roots (some id))
    (underNext : Under (next.entries id) next.roots (some id)) (e : Entry)
    (topLevel : e.topLevel = true ↔ e.parent = none) :
    Under ((id, inputs.link next e) :: (inputs.entries id ++ next.entries id)) [id] e.parent := by
  have children := link_children next (List.nodup_append.mp distinct).1 e
  have roots : (next.roots ++ inputs.roots).Nodup :=
    List.perm_append_comm.nodup_iff.mp ((inputs.roots_sublist.append next.roots_sublist).nodup distinct)
  refine Under.cons (underInputs.append underNext) (e := inputs.link next e) (fun c => ?_) ?_ ?_
    (fun c shades => ?_) topLevel
  · rw [children, List.mem_append, List.mem_append, or_comm]
  · rw [children]
    exact roots
  · exact (slots_names inputs).nodup distinctNames
  · obtain ⟨⟨name, slot⟩, member, shadow⟩ := shades
    obtain ⟨s, there, shadowed⟩ := slots_shadows (q := id) inputs inputsFormed member shadow
    exact ⟨s, List.mem_append_left _ there, shadowed⟩

theorem under_entries (tree : EditorTree layer) (wellFormed : tree.WellFormed) (distinct : tree.ids.Nodup)
    (q : String) : Under (tree.entries q) tree.roots (some q) := by
  induction tree generalizing q with
  | nothing => exact .nil (some q)
  | block data inputs next ihInputs ihNext =>
    obtain ⟨_, distinctNames, inputsFormed, nextFormed⟩ := wellFormed
    obtain ⟨_, inner⟩ := List.nodup_cons.mp distinct
    obtain ⟨distinctInputs, distinctNext, _⟩ := List.nodup_append.mp inner
    exact under_block data.id distinctNames inputsFormed inner (ihInputs inputsFormed distinctInputs data.id)
      (ihNext nextFormed distinctNext data.id) (data.entry false (some q) .undefined .undefined)
      (by simp [EditorBlock.entry])
  | noInputs => exact .nil (some q)
  | input name statement target shadow rest ihTarget ihShadow ihRest =>
    obtain ⟨_, targetFormed, shadowFormed, restFormed⟩ := wellFormed
    rw [ids_input] at distinct
    obtain ⟨distinctHere, distinctRest, _⟩ := List.nodup_append.mp distinct
    rw [entries_input, roots_input]
    refine Under.append ?_ (ihRest restFormed distinctRest q)
    unfold occupants at distinctHere ⊢
    cases first : target.head? with
    | none => exact .nil (some q)
    | some data =>
      cases own : target.startsWithShadow with
      | true =>
        simp only [first, own, Option.isSome_some, if_true, List.flatMap_cons, List.flatMap_nil, List.append_nil]
          at distinctHere ⊢
        exact ihTarget targetFormed distinctHere q
      | false =>
        simp only [first, own, Option.isSome_some, if_true, Bool.false_eq_true, if_false, List.flatMap_cons,
          List.flatMap_nil, List.append_nil] at distinctHere ⊢
        obtain ⟨one, two, _⟩ := List.nodup_append.mp distinctHere
        exact (ihTarget targetFormed one q).append (ihShadow shadowFormed two q)

theorem topEntries_tops (x y : String) (tree : EditorTree .stack) :
    ((tree.topEntries x y).filter (·.2.topLevel)).map (·.1) = tree.roots := by
  have low : ∀ {layer : Layer} (tree : EditorTree layer) (q : String), (tree.entries q).filter (·.2.topLevel) = [] := by
    intro layer tree q
    induction tree generalizing q with
    | nothing => rfl
    | block data inputs next ihInputs ihNext =>
      simp [entries, link, EditorBlock.entry, ihInputs, ihNext]
    | noInputs => rfl
    | input name statement target shadow rest ihTarget ihShadow ihRest =>
      simp only [entries, List.filter_append, ihRest, List.append_nil]
      split
      · rw [List.filter_append, ihTarget]
        split
        · rfl
        · exact ihShadow q
      · rfl
  cases tree with
  | nothing => rfl
  | block data inputs next => simp [topEntries, roots, link, EditorBlock.entry, low]

theorem piece_topEntries (tree : EditorTree .stack) (wellFormed : tree.WellFormed) (distinct : tree.ids.Nodup)
    (x y : String) : Piece (tree.topEntries x y) := by
  cases tree with
  | nothing => exact (Under.nil none).piece List.nodup_nil
  | block data inputs next =>
    have keys : (((block data inputs next).topEntries x y).map (·.1)).Nodup := by
      rw [topEntries_ids]
      exact distinct
    obtain ⟨_, distinctNames, inputsFormed, nextFormed⟩ := wellFormed
    obtain ⟨_, inner⟩ := List.nodup_cons.mp distinct
    obtain ⟨distinctInputs, distinctNext, _⟩ := List.nodup_append.mp inner
    exact (under_block data.id distinctNames inputsFormed inner
      (under_entries inputs inputsFormed distinctInputs data.id) (under_entries next nextFormed distinctNext data.id)
      (data.entry true none (.text x) (.text y))
      (by simp [EditorBlock.entry])).piece keys

end Pieces

end EditorTree

end ArRobotCode.Scratch
