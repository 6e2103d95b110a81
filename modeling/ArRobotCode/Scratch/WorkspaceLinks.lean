import ArRobotCode.Library.ParentForest
import ArRobotCode.Scratch.EntryLinks

namespace ArRobotCode.Scratch.Workspace

open ParentForest Entry

def parents (w : Workspace) (id : String) : Option String := (w.blocks id).bind (·.parent)

def childrenOf (w : Workspace) (id : String) : List String := ((w.blocks id).map (·.children)).getD []

def IsRoot (w : Workspace) (id : String) : Prop := (w.blocks id).isSome ∧ w.parents id = none

def IsShadow (w : Workspace) (id : String) : Prop := ∃ e, w.blocks id = some e ∧ e.shadow = true

def Obscured (w : Workspace) (id : String) : Prop := ∃ p e, w.blocks p = some e ∧ e.Obscures id

/-- Every block is held by one block at most, as `holder` says, and none is inside itself. -/
structure Linked (w : Workspace) (holder : String → Option String) : Prop where
  linked : ∀ p c, holder c = some p ↔ c ∈ w.childrenOf p
  once : ∀ p, (w.childrenOf p).Nodup
  names : ∀ p e, w.blocks p = some e → (e.inputs.map (·.1)).Nodup
  present : ∀ p c, c ∈ w.childrenOf p → (w.blocks c).isSome
  shadows : ∀ p e c, w.blocks p = some e → e.Shades c → w.IsShadow c
  acyclic : Acyclic holder
  finite : {id | (w.blocks id).isSome}.Finite

/-- A block names its holder, unless it is an obscured shadow that names none. -/
def Placed (w : Workspace) (holder : String → Option String) (id : String) : Prop :=
  w.parents id = holder id ∨ w.parents id = none ∧ w.Obscured id

/-- A linked workspace in which the block `x` may be between two places. -/
structure Loose (w : Workspace) (holder : String → Option String) (x : String) : Prop
    extends w.Linked holder where
  placed : ∀ id, id ≠ x → w.Placed holder id
  scripts : ∀ id, id ≠ x → (id ∈ w.scripts ↔ w.IsRoot id)
  noDuplicates : w.scripts.Nodup
  topLevel : ∀ id e, id ≠ x → w.blocks id = some e → (e.topLevel = true ↔ e.parent = none)
  own : ∀ e, w.blocks x = some e → (e.topLevel = true ↔ x ∈ w.scripts)

/-- The links up follow the links down, and the scripts are the blocks that name no parent. -/
structure Coherent (w : Workspace) (holder : String → Option String) : Prop extends w.Linked holder where
  placed : ∀ id, w.Placed holder id
  scripts : ∀ id, id ∈ w.scripts ↔ w.IsRoot id
  noDuplicates : w.scripts.Nodup
  topLevel : ∀ id e, w.blocks id = some e → (e.topLevel = true ↔ e.parent = none)

section Lookups

variable {w : Workspace} {holder : String → Option String} {x p : String} {e : Entry}

theorem parents_some (found : w.blocks p = some e) : w.parents p = e.parent := by
  simp [parents, found]

theorem childrenOf_some (found : w.blocks p = some e) : w.childrenOf p = e.children := by
  simp [childrenOf, found]

theorem some_of_childrenOf (member : x ∈ w.childrenOf p) : ∃ e, w.blocks p = some e ∧ x ∈ e.children := by
  unfold childrenOf at member
  cases found : w.blocks p with
  | none => simp [found] at member
  | some e => exact ⟨e, rfl, by simpa [found] using member⟩

theorem Linked.held (linked : w.Linked holder) (named : holder x = some p) :
    (w.blocks x).isSome ∧ (w.blocks p).isSome := by
  have member := (linked.linked p x).mp named
  obtain ⟨e, found, _⟩ := some_of_childrenOf member
  exact ⟨linked.present p x member, by simp [found]⟩

theorem Linked.not_held (linked : w.Linked holder) (root : holder x = none) (q : String) : x ∉ w.childrenOf q := by
  intro member
  rw [(linked.linked q x).mpr member] at root
  cases root

theorem Linked.finite_holder (linked : w.Linked holder) : {id | (holder id).isSome}.Finite := by
  apply linked.finite.subset
  intro id named
  obtain ⟨p, named⟩ := Option.isSome_iff_exists.mp named
  exact (linked.held named).1

theorem Linked.shadow_of_obscured (linked : w.Linked holder) (obscured : w.Obscured x) : w.IsShadow x := by
  obtain ⟨p, e, found, input, member, shadow, _⟩ := obscured
  exact linked.shadows p e x found ⟨input, member, shadow⟩

theorem Linked.parents_eq (linked : w.Linked holder) (placed : w.Placed holder x) (block : ¬ w.IsShadow x) :
    w.parents x = holder x := by
  rcases placed with same | ⟨_, obscured⟩
  · exact same
  · exact absurd (linked.shadow_of_obscured obscured) block

theorem Coherent.loose (coherent : w.Coherent holder) (x : String) : w.Loose holder x := by
  refine ⟨coherent.toLinked, fun id _ => coherent.placed id, fun id _ => coherent.scripts id, coherent.noDuplicates,
    fun id e _ => coherent.topLevel id e, fun e found => ?_⟩
  rw [coherent.topLevel x e found, ← parents_some found, coherent.scripts]
  simp [IsRoot, found]

theorem Loose.settle (loose : w.Loose holder x) (placed : w.Placed holder x) (listed : x ∈ w.scripts ↔ w.IsRoot x) :
    w.Coherent holder := by
  refine ⟨loose.toLinked, fun id => ?_, fun id => ?_, loose.noDuplicates, fun id e found => ?_⟩
  · by_cases same : id = x
    · rwa [same]
    · exact loose.placed id same
  · by_cases same : id = x
    · rwa [same]
    · exact loose.scripts id same
  · by_cases same : id = x
    · rw [same] at found
      rw [loose.own e found, listed, ← parents_some found]
      simp [IsRoot, found]
    · exact loose.topLevel id e same found

end Lookups

section Updates

variable {w : Workspace} {holder : String → Option String} {x p : String} {e : Entry} {f : Entry → Entry}

theorem update_blocks (id other : String) (f : Entry → Entry) (w : Workspace) :
    (w.update id f).blocks other = if other = id then (w.blocks id).map f else w.blocks other := by
  simp [update, Function.update_apply]

theorem update_found (found : w.blocks p = some e) : (w.update p f).blocks p = some (f e) := by
  simp [update_blocks, found]

theorem update_other (other : x ≠ p) : (w.update p f).blocks x = w.blocks x := by
  simp [update_blocks, other]

@[simp] theorem update_scripts (id : String) (f : Entry → Entry) (w : Workspace) :
    (w.update id f).scripts = w.scripts := rfl

@[simp] theorem update_isSome (id other : String) (f : Entry → Entry) (w : Workspace) :
    ((w.update id f).blocks other).isSome = (w.blocks other).isSome := by
  rw [update_blocks]
  split
  · rename_i same
    rw [same, Option.isSome_map]
  · rfl

theorem update_parents (keeps : ∀ e, (f e).parent = e.parent) : (w.update p f).parents = w.parents := by
  funext c
  rw [parents, update_blocks, parents]
  split
  · rename_i same
    rw [same]
    cases w.blocks p <;> simp [keeps]
  · rfl

theorem update_childrenOf_other (other : x ≠ p) : (w.update p f).childrenOf x = w.childrenOf x := by
  rw [childrenOf, update_other other, childrenOf]

theorem update_childrenOf_self (found : w.blocks p = some e) : (w.update p f).childrenOf p = (f e).children := by
  rw [childrenOf, update_found found]
  rfl

theorem update_isShadow (keeps : ∀ e, (f e).shadow = e.shadow) (id : String) :
    (w.update p f).IsShadow id ↔ w.IsShadow id := by
  unfold IsShadow
  rw [update_blocks]
  split
  · rename_i same
    rw [same]
    cases w.blocks p <;> simp [keeps]
  · rfl

theorem update_isRoot (keeps : ∀ e, (f e).parent = e.parent) (id : String) :
    (w.update p f).IsRoot id ↔ w.IsRoot id := by
  unfold IsRoot
  rw [update_isSome, update_parents keeps]

theorem update_obscured (relinks : Relinks x f) {c : String} (other : c ≠ x) (obscured : w.Obscured c) :
    (w.update p f).Obscured c := by
  obtain ⟨q, e, found, obscures⟩ := obscured
  by_cases same : q = p
  · rw [same] at found
    exact ⟨p, f e, update_found found, relinks.obscures e c other obscures⟩
  · exact ⟨q, e, by rw [update_other same]; exact found, obscures⟩

theorem update_obscured_of_inputs (inputs : ∀ e, (f e).inputs = e.inputs) (obscured : w.Obscured x) :
    (w.update p f).Obscured x := by
  obtain ⟨q, e, found, obscures⟩ := obscured
  by_cases same : q = p
  · rw [same] at found
    refine ⟨p, f e, update_found found, ?_⟩
    unfold Obscures
    rwa [inputs]
  · exact ⟨q, e, by rw [update_other same]; exact found, obscures⟩

theorem Linked.update (linked : w.Linked holder) (relinks : Relinks x f) {holder' : String → Option String}
    (links : ∀ q c, holder' c = some q ↔ c ∈ (w.update p f).childrenOf q)
    (once : ∀ q, ((w.update p f).childrenOf q).Nodup)
    (present : ∀ q c, c ∈ (w.update p f).childrenOf q → (w.blocks c).isSome) (acyclic : Acyclic holder') :
    (w.update p f).Linked holder' := by
  refine ⟨links, once, fun q e found => ?_, fun q c member => ?_, fun q e c found shades => ?_, acyclic, ?_⟩
  · rw [update_blocks] at found
    split at found
    · obtain ⟨old, was, rfl⟩ := Option.map_eq_some_iff.mp found
      exact relinks.names old (linked.names p old was)
    · exact linked.names q e found
  · rw [update_isSome]
    exact present q c member
  · rw [update_isShadow relinks.shadow]
    rw [update_blocks] at found
    split at found
    · obtain ⟨old, was, rfl⟩ := Option.map_eq_some_iff.mp found
      exact linked.shadows p old c was (relinks.shades old c shades)
    · exact linked.shadows q e c found shades
  · simp only [update_isSome]
    exact linked.finite

theorem Linked.update_same (linked : w.Linked holder) (relinks : Relinks x f)
    (same : ∀ e, w.blocks p = some e → (f e).children.Perm e.children) : (w.update p f).Linked holder := by
  have children : ∀ q, ((w.update p f).childrenOf q).Perm (w.childrenOf q) := by
    intro q
    by_cases here : q = p
    · rw [here]
      cases found : w.blocks p with
      | none => simp [childrenOf, update_blocks, found]
      | some e =>
        rw [update_childrenOf_self found, childrenOf_some found]
        exact same e found
    · rw [update_childrenOf_other here]
  refine linked.update relinks (fun q c => ?_) (fun q => ?_) (fun q c member => ?_) linked.acyclic
  · rw [(children q).mem_iff]
    exact linked.linked q c
  · rw [(children q).nodup_iff]
    exact linked.once q
  · exact linked.present q c ((children q).mem_iff.mp member)

theorem Linked.attach (linked : w.Linked holder) (relinks : Relinks x f) (root : holder x = none)
    (there : (w.blocks x).isSome) (apart : ¬ Below holder x p) (found : w.blocks p = some e)
    (joins : (f e).children.Perm (x :: e.children)) :
    (w.update p f).Linked (Function.update holder x (some p)) := by
  have outside := linked.not_held root
  have children : ∀ q c, c ∈ (w.update p f).childrenOf q ↔ (c = x ∧ q = p) ∨ c ∈ w.childrenOf q := by
    intro q c
    by_cases here : q = p
    · rw [here, update_childrenOf_self found, joins.mem_iff, childrenOf_some found]
      simp
    · rw [update_childrenOf_other here]
      simp [here]
  refine linked.update relinks (fun q c => ?_) (fun q => ?_) (fun q c member => ?_) (linked.acyclic.attach apart)
  · rw [children]
    by_cases moved : c = x
    · rw [moved, Function.update_self]
      simp [outside q, eq_comm]
    · rw [Function.update_of_ne moved, linked.linked]
      simp [moved]
  · by_cases here : q = p
    · rw [here, update_childrenOf_self found, joins.nodup_iff, ← childrenOf_some found]
      exact List.nodup_cons.mpr ⟨outside p, linked.once p⟩
    · rw [update_childrenOf_other here]
      exact linked.once q
  · rcases (children q c).mp member with ⟨same, _⟩ | old
    · rwa [same]
    · exact linked.present q c old

theorem Linked.detach (linked : w.Linked holder) (relinks : Relinks x f) (named : holder x = some p)
    (found : w.blocks p = some e) (leaves : e.children.Perm (x :: (f e).children)) :
    (w.update p f).Linked (Function.update holder x none) := by
  have once : x ∉ (f e).children ∧ (f e).children.Nodup := by
    have all := linked.once p
    rw [childrenOf_some found, leaves.nodup_iff] at all
    exact List.nodup_cons.mp all
  have children : ∀ q c, c ∈ (w.update p f).childrenOf q ↔ c ≠ x ∧ c ∈ w.childrenOf q := by
    intro q c
    by_cases here : q = p
    · rw [here, update_childrenOf_self found, childrenOf_some found, leaves.mem_iff]
      by_cases moved : c = x
      · simp [moved, once.1]
      · simp [moved]
    · rw [update_childrenOf_other here]
      by_cases moved : c = x
      · rw [moved, ← linked.linked, named]
        simp [Ne.symm here]
      · simp [moved]
  refine linked.update relinks (fun q c => ?_) (fun q => ?_) (fun q c member => ?_) ?_
  · rw [children]
    by_cases moved : c = x
    · simp [moved]
    · rw [Function.update_of_ne moved, linked.linked]
      simp [moved]
  · by_cases here : q = p
    · rw [here, update_childrenOf_self found]
      exact once.2
    · rw [update_childrenOf_other here]
      exact linked.once q
  · exact linked.present q c ((children q c).mp member).2
  · apply linked.acyclic.mono
    intro c q still
    by_cases moved : c = x
    · rw [moved, Function.update_self] at still
      cases still
    · rwa [Function.update_of_ne moved] at still

end Updates

end ArRobotCode.Scratch.Workspace
