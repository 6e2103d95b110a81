import ArRobotCode.Scratch.AdapterReads
import ArRobotCode.Scratch.WorkspaceDeletes

namespace ArRobotCode.Scratch.Workspace

open ParentForest Trapping Entry

/-- New blocks that fit together: those without a parent start scripts, the others are held by their parents. -/
structure Piece (blocks : List (String × Entry)) : Prop where
  distinct : (blocks.map (·.1)).Nodup
  up : ∀ c e p, (c, e) ∈ blocks → e.parent = some p → ∃ e', (p, e') ∈ blocks ∧ c ∈ e'.children
  down : ∀ p e c, (p, e) ∈ blocks → c ∈ e.children → ∃ e', (c, e') ∈ blocks ∧ e'.parent = some p
  once : ∀ p e, (p, e) ∈ blocks → e.children.Nodup
  names : ∀ p e, (p, e) ∈ blocks → (e.inputs.map (·.1)).Nodup
  shadows : ∀ p e c, (p, e) ∈ blocks → e.Shades c → ∃ s, (c, s) ∈ blocks ∧ s.shadow = true
  topLevel : ∀ c e, (c, e) ∈ blocks → (e.topLevel = true ↔ e.parent = none)
  acyclic : ∀ parent : String → Option String, (∀ c e, (c, e) ∈ blocks → parent c = e.parent) →
    ∀ c e, (c, e) ∈ blocks → Acc (IsParent parent) c

section Creations

variable {w : Workspace} {holder : String → Option String} {blocks : List (String × Entry)} {id : String} {e : Entry}

theorem lookup_of_mem (distinct : (blocks.map (·.1)).Nodup) (member : (id, e) ∈ blocks) :
    blocks.lookup id = some e := by
  induction blocks with
  | nil => cases member
  | cons first rest ih =>
    obtain ⟨key, value⟩ := first
    obtain ⟨fresh, distinct⟩ := List.nodup_cons.mp distinct
    rcases List.mem_cons.mp member with same | inside
    · cases same
      simp
    · have other : id ≠ key := fun same => fresh (same ▸ List.mem_map.mpr ⟨(id, e), inside, rfl⟩)
      have skip : (id == key) = false := by simpa using other
      rw [List.lookup_cons, skip]
      exact ih distinct inside

theorem lookup_eq_none : blocks.lookup id = none ↔ id ∉ blocks.map (·.1) := by
  induction blocks with
  | nil => simp
  | cons first rest ih =>
    obtain ⟨key, value⟩ := first
    by_cases same : id = key
    · simp [same]
    · have skip : (id == key) = false := by simpa using same
      simp [List.lookup_cons, skip, ih, same]

theorem createBlock_present (present : (w.blocks id).isSome) : w.createBlock id e = w := if_pos present

theorem createBlock_missing (missing : w.blocks id = none) : w.createBlock id e =
    { w with blocks := Function.update w.blocks id (some e)
             scripts := if e.topLevel = true ∧ id ∉ w.scripts then w.scripts ++ [id] else w.scripts } := by
  unfold createBlock
  rw [missing]
  cases top : e.topLevel with
  | false => simp
  | true =>
    have same : e.setTopLevel true = e := by
      unfold setTopLevel
      rw [← top]
    by_cases listed : id ∈ w.scripts <;> simp [addScript, listed, update, same]

theorem createBlocks_present (present : ∀ id ∈ blocks.map (·.1), (w.blocks id).isSome) : w.createBlocks blocks = w := by
  induction blocks with
  | nil => rfl
  | cons first rest ih =>
    obtain ⟨id, e⟩ := first
    change (w.createBlock id e).createBlocks rest = w
    rw [createBlock_present (present id (by simp))]
    exact ih fun other member => present other (List.mem_cons_of_mem _ member)

theorem createBlocks_fresh (distinct : (blocks.map (·.1)).Nodup) (fresh : ∀ id ∈ blocks.map (·.1), w.blocks id = none)
    (listed : ∀ id ∈ w.scripts, (w.blocks id).isSome) :
    (∀ id, (w.createBlocks blocks).blocks id = (blocks.lookup id).or (w.blocks id)) ∧
      (w.createBlocks blocks).scripts = w.scripts ++ (blocks.filter (·.2.topLevel)).map (·.1) := by
  induction blocks generalizing w with
  | nil => simp [createBlocks]
  | cons first rest ih =>
    obtain ⟨key, e⟩ := first
    obtain ⟨apart, distinct⟩ := List.nodup_cons.mp distinct
    have missing : w.blocks key = none := fresh key (by simp)
    have unlisted : key ∉ w.scripts := by
      intro member
      have there := listed key member
      simp [missing] at there
    have created := createBlock_missing (e := e) missing
    simp only [unlisted, not_false_eq_true, and_true] at created
    have fresh' : ∀ id ∈ rest.map (·.1), (w.createBlock key e).blocks id = none := by
      intro id member
      have other : id ≠ key := fun same => apart (same ▸ member)
      rw [created]
      exact (Function.update_of_ne other _ _).trans (fresh id (List.mem_cons_of_mem _ member))
    have listed' : ∀ id ∈ (w.createBlock key e).scripts, ((w.createBlock key e).blocks id).isSome := by
      rw [created]
      intro id member
      by_cases same : id = key
      · simp [same]
      · simp only [Function.update_of_ne same]
        apply listed
        split at member
        · simpa [same] using member
        · exact member
    obtain ⟨lookups, scripts⟩ := ih distinct fresh' listed'
    refine ⟨fun id => ?_, ?_⟩
    · change ((w.createBlock key e).createBlocks rest).blocks id = _
      rw [lookups, created]
      by_cases same : id = key
      · have none : rest.lookup key = none := lookup_eq_none.mpr apart
        simp [same, none]
      · have skip : (id == key) = false := by simpa using same
        simp [List.lookup_cons, skip, same]
    · change ((w.createBlock key e).createBlocks rest).scripts = _
      rw [scripts, created]
      cases top : e.topLevel <;> simp [top]

theorem createBlock_isSome_other {id' : String} {e' : Entry} (apart : id ≠ id') :
    ((w.createBlock id' e').blocks id).isSome = (w.blocks id).isSome := by
  cases found : w.blocks id' with
  | some _ => rw [createBlock_present (by simp [found])]
  | none => simp [createBlock_missing found, apart]

theorem createBlock_comm {id' : String} {e' : Entry} (apart : id ≠ id')
    (single : ¬ (e.topLevel = true ∧ e'.topLevel = true)) :
    (w.createBlock id e).createBlock id' e' = (w.createBlock id' e').createBlock id e := by
  by_cases present : (w.blocks id).isSome
  · have still : ((w.createBlock id' e').blocks id).isSome := by rwa [createBlock_isSome_other apart]
    rw [createBlock_present present, createBlock_present still]
  by_cases present' : (w.blocks id').isSome
  · have still : ((w.createBlock id e).blocks id').isSome := by rwa [createBlock_isSome_other (Ne.symm apart)]
    rw [createBlock_present present', createBlock_present still]
  have missing : w.blocks id = none := by simpa using present
  have missing' : w.blocks id' = none := by simpa using present'
  have later : (w.createBlock id e).blocks id' = none := by
    rw [← Option.not_isSome_iff_eq_none, createBlock_isSome_other (Ne.symm apart)]
    exact present'
  have later' : (w.createBlock id' e').blocks id = none := by
    rw [← Option.not_isSome_iff_eq_none, createBlock_isSome_other apart]
    exact present
  rw [createBlock_missing later, createBlock_missing later', createBlock_missing missing, createBlock_missing missing']
  have blocks := Function.update_comm apart (some e) (some e') w.blocks
  cases top : e.topLevel with
  | false => simp [blocks]
  | true =>
    have other : e'.topLevel = false := by simpa [top] using single
    simp [blocks, other]

theorem createBlocks_perm {blocks' : List (String × Entry)} (same : blocks.Perm blocks')
    (distinct : (blocks.map (·.1)).Nodup) {top : String}
    (single : ∀ id ∈ (blocks.filter (·.2.topLevel)).map (·.1), id = top) :
    w.createBlocks blocks = w.createBlocks blocks' := by
  apply same.foldl_eq'
  intro one first two second w
  by_cases apart : one.1 = two.1
  · rw [List.inj_on_of_nodup_map distinct first second apart]
  · apply createBlock_comm apart
    intro both
    have isTop : ∀ block ∈ blocks, block.2.topLevel = true → block.1 = top := fun block member topLevel =>
      single block.1 (List.mem_map_of_mem (List.mem_filter.mpr ⟨member, topLevel⟩))
    exact apart ((isTop one first both.1).trans (isTop two second both.2).symm)

def joinHolders (blocks : List (String × Entry)) (holder : String → Option String) (id : String) : Option String :=
  match blocks.lookup id with
  | none => holder id
  | some e => e.parent

theorem Piece.mem_iff (piece : Piece blocks) : (id, e) ∈ blocks ↔ blocks.lookup id = some e :=
  ⟨lookup_of_mem piece.distinct, mem_of_lookup⟩

theorem Coherent.create (coherent : w.Coherent holder) (piece : Piece blocks)
    (fresh : ∀ id ∈ blocks.map (·.1), w.blocks id = none) :
    (w.createBlocks blocks).Coherent (joinHolders blocks holder) := by
  have listed : ∀ id ∈ w.scripts, (w.blocks id).isSome := fun id member => ((coherent.scripts id).mp member).1
  obtain ⟨lookups, scripts⟩ := createBlocks_fresh piece.distinct fresh listed
  have new : ∀ {id e}, (id, e) ∈ blocks → (w.createBlocks blocks).blocks id = some e := by
    intro id e member
    rw [lookups, piece.mem_iff.mp member, Option.some_or]
  have old : ∀ {id e}, w.blocks id = some e → (w.createBlocks blocks).blocks id = some e ∧ blocks.lookup id = none := by
    intro id e found
    have outside : blocks.lookup id = none := by
      rw [lookup_eq_none]
      intro member
      rw [fresh id member] at found
      cases found
    rw [lookups, outside, Option.none_or]
    exact ⟨found, rfl⟩
  have split : ∀ {id e}, (w.createBlocks blocks).blocks id = some e → (id, e) ∈ blocks ∨ w.blocks id = some e := by
    intro id e found
    rw [lookups] at found
    cases lookup : blocks.lookup id with
    | none =>
      rw [lookup, Option.none_or] at found
      exact .inr found
    | some e' =>
      rw [lookup, Option.some_or] at found
      cases found
      exact .inl (mem_of_lookup lookup)
  have holderNew : ∀ {id e}, (id, e) ∈ blocks → joinHolders blocks holder id = e.parent := by
    intro id e member
    rw [joinHolders, piece.mem_iff.mp member]
  have holderOld : ∀ {id e}, w.blocks id = some e → joinHolders blocks holder id = holder id := by
    intro id e found
    rw [joinHolders, (old found).2]
  have held : ∀ {id p}, holder id = some p → ∃ e e', w.blocks id = some e ∧ w.blocks p = some e' := by
    intro id p named
    obtain ⟨one, two⟩ := coherent.toLinked.held named
    obtain ⟨e, found⟩ := Option.isSome_iff_exists.mp one
    obtain ⟨e', found'⟩ := Option.isSome_iff_exists.mp two
    exact ⟨e, e', found, found'⟩
  have linked : (w.createBlocks blocks).Linked (joinHolders blocks holder) := by
    refine ⟨fun p c => ?_, fun p => ?_, fun p e found => ?_, fun p c member => ?_, fun p e c found shades => ?_, ?_, ?_⟩
    · constructor
      · intro named
        unfold joinHolders at named
        split at named
        · obtain ⟨e, e', _, found⟩ := held named
          rw [childrenOf_some (old found).1, ← childrenOf_some found]
          exact (coherent.linked p c).mp named
        · rename_i e lookup
          obtain ⟨e', member, child⟩ := piece.up c e p (mem_of_lookup lookup) named
          rw [childrenOf_some (new member)]
          exact child
      · intro member
        obtain ⟨e, found, child⟩ := some_of_childrenOf member
        rcases split found with inside | outside
        · obtain ⟨e', member', parent⟩ := piece.down p e c inside child
          rw [holderNew member', parent]
        · rw [← childrenOf_some outside, ← coherent.linked] at child
          obtain ⟨e', _, found', _⟩ := held child
          rw [holderOld found', child]
    · cases found : (w.createBlocks blocks).blocks p with
      | none => simp [childrenOf, found]
      | some e =>
        rw [childrenOf_some found]
        rcases split found with inside | outside
        · exact piece.once p e inside
        · rw [← childrenOf_some outside]
          exact coherent.once p
    · rcases split found with inside | outside
      · exact piece.names p e inside
      · exact coherent.names p e outside
    · obtain ⟨e, found, child⟩ := some_of_childrenOf member
      rcases split found with inside | outside
      · obtain ⟨e', member', _⟩ := piece.down p e c inside child
        simp [new member']
      · rw [← childrenOf_some outside, ← coherent.linked] at child
        obtain ⟨e', _, found', _⟩ := held child
        simp [(old found').1]
    · rcases split found with inside | outside
      · obtain ⟨s, member, shadow⟩ := piece.shadows p e c inside shades
        exact ⟨s, new member, shadow⟩
      · obtain ⟨s, found', shadow⟩ := coherent.shadows p e c outside shades
        exact ⟨s, (old found').1, shadow⟩
    · have newAcc := piece.acyclic (joinHolders blocks holder) fun c e member => holderNew member
      have oldAcc : ∀ c, blocks.lookup c = none → Acc (IsParent (joinHolders blocks holder)) c := by
        intro c
        induction c using coherent.acyclic.induction with
        | _ c ih =>
          intro outside
          refine ⟨c, fun p named => ?_⟩
          have same : joinHolders blocks holder c = holder c := by rw [joinHolders, outside]
          rw [IsParent, same] at named
          obtain ⟨_, e', _, found⟩ := held named
          exact ih p named (old found).2
      refine ⟨fun c => ?_⟩
      cases lookup : blocks.lookup c with
      | none => exact oldAcc c lookup
      | some e => exact newAcc c e (mem_of_lookup lookup)
    · apply (coherent.finite.union (blocks.map (·.1)).finite_toSet).subset
      intro id there
      obtain ⟨e, found⟩ := Option.isSome_iff_exists.mp there
      rcases split found with inside | outside
      · exact .inr (List.mem_map.mpr ⟨(id, e), inside, rfl⟩)
      · exact .inl (Option.isSome_iff_exists.mpr ⟨e, outside⟩)
  have topLevels : ∀ id e, (w.createBlocks blocks).blocks id = some e → (e.topLevel = true ↔ e.parent = none) := by
    intro id e found
    rcases split found with inside | outside
    · exact piece.topLevel id e inside
    · exact coherent.topLevel id e outside
  have newScripts : ∀ id, id ∈ (blocks.filter (·.2.topLevel)).map (·.1) ↔ ∃ e, (id, e) ∈ blocks ∧ e.parent = none := by
    intro id
    constructor
    · intro member
      obtain ⟨⟨_, e⟩, inside, rfl⟩ := List.mem_map.mp member
      obtain ⟨inside, top⟩ := List.mem_filter.mp inside
      exact ⟨e, inside, (piece.topLevel _ e inside).mp top⟩
    · intro there
      obtain ⟨e, inside, root⟩ := there
      exact List.mem_map.mpr ⟨(id, e), List.mem_filter.mpr ⟨inside, (piece.topLevel id e inside).mpr root⟩, rfl⟩
  refine ⟨linked, fun id => ?_, fun id => ?_, ?_, topLevels⟩
  · cases lookup : blocks.lookup id with
    | some e =>
      left
      rw [parents_some (new (mem_of_lookup lookup)), holderNew (mem_of_lookup lookup)]
    | none =>
      have same : joinHolders blocks holder id = holder id := by rw [joinHolders, lookup]
      have parents : (w.createBlocks blocks).parents id = w.parents id := by
        rw [Workspace.parents, lookups, lookup, Option.none_or, Workspace.parents]
      unfold Placed
      rw [same, parents]
      rcases coherent.placed id with placed | ⟨none, p, e, found, obscures⟩
      · exact .inl placed
      · exact .inr ⟨none, p, e, (old found).1, obscures⟩
  · rw [scripts, List.mem_append, coherent.scripts, newScripts]
    constructor
    · intro either
      rcases either with ⟨there, root⟩ | ⟨e, inside, root⟩
      · obtain ⟨e, found⟩ := Option.isSome_iff_exists.mp there
        rw [parents_some found] at root
        exact ⟨by simp [(old found).1], by rw [parents_some (old found).1, root]⟩
      · exact ⟨by simp [new inside], by rw [parents_some (new inside), root]⟩
    · intro there
      obtain ⟨there, root⟩ := there
      obtain ⟨e, found⟩ := Option.isSome_iff_exists.mp there
      rw [parents_some found] at root
      rcases split found with inside | outside
      · exact .inr ⟨e, inside, root⟩
      · exact .inl ⟨by simp [outside], by rw [parents_some outside, root]⟩
  · rw [scripts]
    apply List.nodup_append.mpr
    refine ⟨coherent.noDuplicates, ?_, fun a member b member' same => ?_⟩
    · exact (List.filter_sublist.map _).nodup piece.distinct
    · rw [← same, newScripts] at member'
      obtain ⟨e, inside, _⟩ := member'
      have missing := fresh a (List.mem_map.mpr ⟨(a, e), inside, rfl⟩)
      have there := listed a member
      simp [missing] at there

end Creations

end ArRobotCode.Scratch.Workspace
