import ArRobotCode.Scratch.WorkspaceLinks

namespace ArRobotCode.Scratch

open ParentForest Trapping

namespace Workspace

open Entry

def HoldsAt (w : Workspace) (p : String) (input : Option String) (x : String) : Prop :=
  ∃ e, w.blocks p = some e ∧ e.HoldsAt input x

def FreeAt (w : Workspace) (p : String) (input : Option String) : Prop := ∃ e, w.blocks p = some e ∧ e.FreeAt input

def SlotAt (w : Workspace) (p name : String) (slot : Slot) : Prop :=
  ∃ e, w.blocks p = some e ∧ e.inputs.lookup name = some slot

def Inside (w : Workspace) : String → String → Prop := Relation.ReflTransGen fun p c => c ∈ w.childrenOf p

/-- What the editor keeps to when it moves a block: the block leaves the place where it is for one that is free and
    not inside the block. A shadow only gives way to a block, and comes back when that block has left. -/
inductive Fits (w : Workspace) (e : Move) : Prop
  | missing (missing : w.blocks e.id = none)
  | block (present : (w.blocks e.id).isSome) (block : ¬ w.IsShadow e.id)
      (loose : e.oldParent = none → w.parents e.id = none)
      (leaves : ∀ p, e.oldParent = some p → w.HoldsAt p e.oldInput e.id)
      (arrives : ∀ q, e.newParent = some q → w.FreeAt q e.newInput ∧ ¬ w.Inside e.id q)
  | giveWay {p name : String} (oldParent : e.oldParent = some p) (oldInput : e.oldInput = some name)
      (newParent : e.newParent = none) (shows : w.SlotAt p name ⟨some e.id, some e.id⟩)
  | comeBack {q name : String} (oldParent : e.oldParent = none) (newParent : e.newParent = some q)
      (newInput : e.newInput = some name) (obscured : w.SlotAt q name ⟨none, some e.id⟩)

section Steps

variable {w : Workspace} {holder holder' : String → Option String} {x p : String} {f : Entry → Entry}

theorem Linked.withScripts (linked : w.Linked holder) (scripts : List String) :
    ({ w with scripts } : Workspace).Linked holder :=
  ⟨linked.linked, linked.once, linked.names, linked.present, linked.shadows, linked.acyclic, linked.finite⟩

theorem Loose.update (loose : w.Loose holder x) (relinks : Relinks x f) (parent : ∀ e, (f e).parent = e.parent)
    (topLevel : ∀ e, (f e).topLevel = e.topLevel) (linked : (w.update p f).Linked holder')
    (others : ∀ c, c ≠ x → holder' c = holder c) : (w.update p f).Loose holder' x := by
  refine ⟨linked, fun c other => ?_, fun c other => ?_, loose.noDuplicates, fun c e other found => ?_,
    fun e found => ?_⟩
  · unfold Placed
    rw [update_parents parent, others c other]
    rcases loose.placed c other with same | ⟨none, obscured⟩
    · exact .inl same
    · exact .inr ⟨none, update_obscured relinks other obscured⟩
  · rw [update_isRoot parent]
    exact loose.scripts c other
  · rw [update_blocks] at found
    split at found
    · rename_i same
      obtain ⟨old, was, rfl⟩ := Option.map_eq_some_iff.mp found
      rw [topLevel, parent]
      exact loose.topLevel c old other (same ▸ was)
    · exact loose.topLevel c e other found
  · rw [update_blocks] at found
    split at found
    · rename_i same
      obtain ⟨old, was, rfl⟩ := Option.map_eq_some_iff.mp found
      rw [topLevel]
      exact loose.own old (same ▸ was)
    · exact loose.own e found

theorem Loose.update_plain (loose : w.Loose holder x) (plain : Plain f) : (w.update p f).Loose holder x :=
  loose.update plain.relinks plain.parent plain.topLevel
    (loose.toLinked.update_same plain.relinks (x := x) fun e _ => .of_eq (plain.children e)) fun _ _ => rfl

theorem Loose.update_own (loose : w.Loose holder x) (relinks : Relinks x f)
    (children : ∀ e, (f e).children = e.children) (scripts : List String)
    (own : ∀ e, w.blocks x = some e → ((f e).topLevel = true ↔ x ∈ scripts)) (noDuplicates : scripts.Nodup)
    (others : ∀ c, c ≠ x → (c ∈ scripts ↔ c ∈ w.scripts)) :
    ({ w.update x f with scripts } : Workspace).Loose holder x := by
  have linked : (w.update x f).Linked holder := loose.toLinked.update_same relinks fun e _ => .of_eq (children e)
  have parents : ∀ c, c ≠ x → (w.update x f).parents c = w.parents c := by
    intro c other
    rw [Workspace.parents, update_other other, Workspace.parents]
  refine ⟨linked.withScripts scripts, fun c other => ?_, fun c other => ?_, noDuplicates, fun c e other found => ?_,
    fun e found => ?_⟩
  · rcases loose.placed c other with same | ⟨none, obscured⟩
    · exact .inl ((parents c other).trans same)
    · exact .inr ⟨(parents c other).trans none, update_obscured relinks other obscured⟩
  · rw [others c other, loose.scripts c other]
    change _ ↔ ((w.update x f).blocks c).isSome ∧ (w.update x f).parents c = none
    rw [update_isSome, parents c other]
    rfl
  · exact loose.topLevel c e other (by rw [← found]; exact (update_other other).symm)
  · have found' : (w.update x f).blocks x = some e := found
    rw [update_blocks, if_pos rfl] at found'
    obtain ⟨old, was, rfl⟩ := Option.map_eq_some_iff.mp found'
    exact own old was

theorem Loose.setParent (loose : w.Loose holder x) (parent : Option String) :
    (w.update x (.setParent parent)).Loose holder x :=
  loose.update_own (relinks_setParent parent) (fun _ => rfl) w.scripts loose.own loose.noDuplicates fun _ _ => .rfl

theorem Loose.deleteScript (loose : w.Loose holder x) : (w.deleteScript x).Loose holder x := by
  apply loose.update_own (relinks_setTopLevel false) (fun _ => rfl) (w.scripts.erase x)
  · intro e _
    simp [setTopLevel, loose.noDuplicates.mem_erase_iff]
  · exact loose.noDuplicates.erase x
  · intro c other
    simp [List.mem_erase_of_ne other]

theorem Loose.addScript (loose : w.Loose holder x) : (w.addScript x).Loose holder x := by
  unfold Workspace.addScript
  split
  · exact loose
  · rename_i missing
    apply loose.update_own (relinks_setTopLevel true) (fun _ => rfl) (w.scripts ++ [x])
    · simp [setTopLevel]
    · apply List.nodup_append.mpr
      refine ⟨loose.noDuplicates, by simp, fun a member b single same => ?_⟩
      exact missing (List.mem_singleton.mp single ▸ same ▸ member)
    · intro c other
      simp [other]

end Steps

section Places

variable {w : Workspace} {x c p q : String} {input other : Option String} {f : Entry → Entry}

theorem update_holdsAt_unplugAt : (w.update q (unplugAt input)).HoldsAt p other c ↔
    ¬ (p = q ∧ other = input) ∧ w.HoldsAt p other c := by
  unfold HoldsAt
  rw [update_blocks]
  split
  · rename_i same
    subst same
    cases w.blocks p <;> simp [unplugAt_holdsAt]
  · rename_i differ
    simp [differ]

theorem update_holdsAt_plugAt (free : w.FreeAt q input) : (w.update q (plugAt input x)).HoldsAt p other c ↔
    p = q ∧ other = input ∧ c = x ∨ w.HoldsAt p other c := by
  obtain ⟨e, found, free⟩ := free
  unfold HoldsAt
  rw [update_blocks]
  split
  · rename_i same
    subst same
    simp [found, plugAt_holdsAt free]
  · rename_i differ
    simp [differ]

theorem update_holdsAt (next : ∀ e, (f e).next = e.next) (inputs : ∀ e, (f e).inputs = e.inputs) :
    (w.update q f).HoldsAt p other c ↔ w.HoldsAt p other c := by
  have same : ∀ e, (f e).HoldsAt other c ↔ e.HoldsAt other c := by
    intro e
    cases other <;> simp [Entry.HoldsAt, next, inputs]
  unfold HoldsAt
  rw [update_blocks]
  split
  · rename_i here
    rw [here]
    cases w.blocks q <;> simp [same]
  · rfl

theorem update_freeAt_unplugAt (free : w.FreeAt p other) : (w.update q (unplugAt input)).FreeAt p other := by
  obtain ⟨e, found, free⟩ := free
  by_cases same : p = q
  · subst same
    exact ⟨_, update_found found, unplugAt_freeAt free⟩
  · exact ⟨e, by rw [update_other same]; exact found, free⟩

theorem update_freeAt (next : ∀ e, (f e).next = e.next) (inputs : ∀ e, (f e).inputs = e.inputs)
    (free : w.FreeAt p other) : (w.update q f).FreeAt p other := by
  obtain ⟨e, found, free⟩ := free
  by_cases same : p = q
  · subst same
    refine ⟨_, update_found found, ?_⟩
    cases other <;> simpa [Entry.FreeAt, next, inputs] using free
  · exact ⟨e, by rw [update_other same]; exact found, free⟩

theorem update_slotAt {name : String} {slot : Slot} (inputs : ∀ e, (f e).inputs = e.inputs)
    (there : w.SlotAt p name slot) : (w.update q f).SlotAt p name slot := by
  obtain ⟨e, found, lookup⟩ := there
  by_cases same : p = q
  · subst same
    exact ⟨_, update_found found, by rwa [inputs]⟩
  · exact ⟨e, by rw [update_other same]; exact found, lookup⟩

theorem SlotAt.obscured {name : String} (there : w.SlotAt p name ⟨none, some x⟩) : w.Obscured x := by
  obtain ⟨e, found, lookup⟩ := there
  exact ⟨p, e, found, (name, ⟨none, some x⟩), mem_of_lookup lookup, rfl, by simp⟩

end Places

section Runs

variable {e : Move} {w : Workspace}

def positioned (e : Move) (w : Workspace) : Workspace :=
  match e.newCoordinate with
  | none => w
  | some (x, y) => w.update e.id (.setPosition x y)

def taken (e : Move) (w : Workspace) : Workspace :=
  match e.oldParent with
  | none => w
  | some p => (w.update p (unplugAt e.oldInput)).update e.id (.setParent none)

def arrived (e : Move) (w : Workspace) : Workspace :=
  match e.newParent with
  | none => w.addScript e.id
  | some q => ((w.deleteScript e.id).update q (plugAt e.newInput e.id)).update e.id (.setParent (some q))

theorem run_removeFromOldParent {p : String} (leaves : w.HoldsAt p e.oldInput e.id) :
    (removeFromOldParent e p).run w = .ok () ((w.update p (unplugAt e.oldInput)).update e.id (.setParent none)) := by
  obtain ⟨old, found, holds⟩ := leaves
  unfold removeFromOldParent
  cases input : e.oldInput with
  | none =>
    rw [input] at holds
    have next : old.next = some e.id := holds
    simp [found, next, unplugAt, modify, -bind_pure_comp]
  | some name =>
    rw [input] at holds
    obtain ⟨slot, plugged, block⟩ := holds
    simp [found, plugged, block, unplugAt, modify, -bind_pure_comp]

theorem run_connectToNewParent {q : String} (present : (w.blocks q).isSome) :
    (connectToNewParent e q).run w =
      .ok () (((w.deleteScript e.id).update q (plugAt e.newInput e.id)).update e.id (.setParent (some q))) := by
  have present' : ((w.deleteScript e.id).blocks q).isSome := by
    change ((w.update e.id (.setTopLevel false)).blocks q).isSome
    rwa [update_isSome]
  unfold connectToNewParent assign
  cases input : e.newInput <;> simp [present', plugAt, modify, -bind_pure_comp]

theorem run_moveBlock (present : (w.blocks e.id).isSome)
    (leaves : ∀ p, e.oldParent = some p → (positioned e w).HoldsAt p e.oldInput e.id)
    (arrives : ∀ q, e.newParent = some q → (w.blocks q).isSome) :
    (moveBlock e).run w = .ok () (arrived e (taken e (positioned e w))) := by
  have stays : ∀ q, ((taken e (positioned e w)).blocks q).isSome = (w.blocks q).isSome := by
    intro q
    unfold taken positioned
    split <;> split <;> simp
  have there : w.blocks e.id ≠ none := Option.isSome_iff_ne_none.mp present
  have position : (takeCoordinate e).run w = .ok () (positioned e w) := by
    unfold takeCoordinate positioned
    cases e.newCoordinate <;> rfl
  have leave : (leaveOldPlace e).run (positioned e w) = .ok () (taken e (positioned e w)) := by
    unfold leaveOldPlace taken
    cases old : e.oldParent with
    | none => rfl
    | some p => exact run_removeFromOldParent (leaves p old)
  have enter : (enterNewPlace e).run (taken e (positioned e w)) = .ok () (arrived e (taken e (positioned e w))) := by
    unfold enterNewPlace arrived
    cases new : e.newParent with
    | none => rfl
    | some q =>
      apply run_connectToNewParent
      rw [stays]
      exact arrives q new
  simp [moveBlock, there, position, leave, enter, EStateM.run_bind]

end Runs

section Moves

variable {w : Workspace} {holder : String → Option String} {e : Move} {x p q : String} {input : Option String}

theorem Linked.inside_iff (linked : w.Linked holder) : w.Inside x p ↔ Below holder x p := by
  have same : (fun p c => c ∈ w.childrenOf p) = IsParent holder := by
    funext p c
    exact propext (linked.linked p c).symm
  rw [Inside, same]
  rfl

theorem Linked.holder_of_holdsAt (linked : w.Linked holder) (holds : w.HoldsAt p input x) : holder x = some p := by
  obtain ⟨e, found, holds⟩ := holds
  rw [linked.linked, childrenOf_some found, children]
  cases input with
  | none =>
    have next : e.next = some x := holds
    simp [next]
  | some name =>
    obtain ⟨slot, lookup, block⟩ := holds
    apply List.mem_append_right
    exact List.mem_flatMap.mpr ⟨(name, slot), mem_of_lookup lookup, by simp [Slot.held, block]⟩

theorem Linked.holder_of_slotAt {name : String} (linked : w.Linked holder) (there : w.SlotAt p name ⟨none, some x⟩) :
    holder x = some p := by
  obtain ⟨e, found, lookup⟩ := there
  rw [linked.linked, childrenOf_some found, children]
  apply List.mem_append_right
  exact List.mem_flatMap.mpr ⟨_, mem_of_lookup lookup, by simp [Slot.held]⟩

theorem update_none_of_none (held : holder x = none) : Function.update holder x none = holder :=
  (congrArg (Function.update holder x) held.symm).trans (Function.update_eq_self x holder)

theorem Coherent.update_plain (coherent : w.Coherent holder) {f : Entry → Entry} (plain : Plain f) :
    (w.update x f).Coherent holder := by
  apply ((coherent.loose x).update_plain plain).settle
  · unfold Placed
    rw [update_parents plain.parent]
    rcases coherent.placed x with same | ⟨none, obscured⟩
    · exact .inl same
    · exact .inr ⟨none, update_obscured_of_inputs plain.inputs obscured⟩
  · rw [update_isRoot plain.parent]
    exact coherent.scripts x

theorem Coherent.positioned (coherent : w.Coherent holder) : (positioned e w).Coherent holder := by
  unfold Workspace.positioned
  split
  · exact coherent
  · exact coherent.update_plain (plain_setPosition _ _)

theorem Loose.takenBlock (loose : w.Loose holder e.id) (block : ¬ w.IsShadow e.id)
    (stays : e.oldParent = none → w.parents e.id = none)
    (leaves : ∀ p, e.oldParent = some p → w.HoldsAt p e.oldInput e.id) (placed : w.Placed holder e.id) :
    (taken e w).Loose (Function.update holder e.id none) e.id ∧ (taken e w).parents e.id = none := by
  have named := loose.toLinked.parents_eq placed block
  unfold taken
  cases old : e.oldParent with
  | none =>
    have root := stays old
    rw [update_none_of_none (named.symm.trans root)]
    exact ⟨loose, root⟩
  | some p =>
    have holds := leaves p old
    have held := loose.toLinked.holder_of_holdsAt holds
    have present := (loose.toLinked.held held).1
    obtain ⟨parent, found, holds⟩ := holds
    have unshaded : ¬ parent.Shades e.id := fun shades => block (loose.shadows p parent e.id found shades)
    have linked := loose.toLinked.detach (relinks_unplugAt e.oldInput e.id) held found
      (children_unplugAt holds unshaded)
    have off : ∀ c, c ≠ e.id → Function.update holder e.id none c = holder c :=
      fun c other => Function.update_of_ne other _ _
    refine ⟨(loose.update (relinks_unplugAt _ _) (unplugAt_parent _) (unplugAt_topLevel _) linked off).setParent none,
      ?_⟩
    obtain ⟨own, there⟩ := Option.isSome_iff_exists.mp (update_isSome p e.id (unplugAt e.oldInput) w ▸ present)
    rw [parents_some (update_found there)]
    rfl

theorem addScript_parents (x : String) (w : Workspace) : (w.addScript x).parents = w.parents := by
  unfold addScript
  split
  · rfl
  · exact update_parents fun _ => rfl

theorem mem_addScript (x : String) (w : Workspace) : x ∈ (w.addScript x).scripts := by
  unfold addScript
  split
  · assumption
  · simp

theorem addScript_isSome (x id : String) (w : Workspace) :
    ((w.addScript x).blocks id).isSome = (w.blocks id).isSome := by
  unfold addScript
  split
  · rfl
  · exact update_isSome x id _ w

theorem Loose.settle_root (loose : w.Loose holder x) (present : (w.blocks x).isSome) (root : w.parents x = none)
    (placed : (w.addScript x).Placed holder x) : (w.addScript x).Coherent holder := by
  apply loose.addScript.settle placed
  simp [mem_addScript, IsRoot, addScript_isSome, addScript_parents, present, root]

theorem Loose.settle_under (loose : w.Loose holder x) (present : (w.blocks x).isSome) (unlisted : x ∉ w.scripts)
    (held : holder x = some p) : (w.update x (.setParent (some p))).Coherent holder := by
  obtain ⟨own, found⟩ := Option.isSome_iff_exists.mp present
  have parent : (w.update x (.setParent (some p))).parents x = some p := by
    rw [parents_some (update_found found)]
    rfl
  apply (loose.setParent (some p)).settle
  · exact .inl (parent.trans held.symm)
  · simp [IsRoot, parent, unlisted]

theorem Loose.arrivedBlock (loose : w.Loose holder e.id) (held : holder e.id = none) (block : ¬ w.IsShadow e.id)
    (present : (w.blocks e.id).isSome) (root : w.parents e.id = none)
    (arrives : ∀ q, e.newParent = some q → w.FreeAt q e.newInput ∧ ¬ Below holder e.id q) :
    (arrived e w).Coherent (Function.update holder e.id e.newParent) := by
  unfold arrived
  cases new : e.newParent with
  | none =>
    rw [update_none_of_none held]
    apply loose.settle_root present root
    left
    rw [addScript_parents, root, held]
  | some q =>
    obtain ⟨free, apart⟩ := arrives q new
    have off : ∀ c, c ≠ e.id → Function.update holder e.id (some q) c = holder c :=
      fun c other => Function.update_of_ne other _ _
    have deleted := loose.deleteScript
    have there : ((w.deleteScript e.id).blocks e.id).isSome := (update_isSome e.id e.id _ w).trans present
    have block' : ¬ (w.deleteScript e.id).IsShadow e.id :=
      fun shadow =>
        block ((update_isShadow (w := w) (p := e.id) (f := setTopLevel false) (fun _ => rfl) e.id).mp shadow)
    obtain ⟨parent, found, free⟩ : (w.deleteScript e.id).FreeAt q e.newInput :=
      update_freeAt (f := setTopLevel false) (fun _ => rfl) (fun _ => rfl) free
    have unshaded : ¬ parent.Shades e.id := fun shades => block' (deleted.shadows q parent e.id found shades)
    have linked := deleted.toLinked.attach (relinks_plugAt e.newInput e.id) held there apart found
      (plugAt_children free unshaded)
    have plugged := deleted.update (relinks_plugAt _ _) (plugAt_parent _ _) (plugAt_topLevel _ _) linked off
    apply plugged.settle_under
    · rw [update_isSome]
      exact there
    · exact loose.noDuplicates.not_mem_erase
    · exact Function.update_self _ _ _

theorem positioned_parents (e : Move) (w : Workspace) : (positioned e w).parents = w.parents := by
  unfold positioned
  split
  · rfl
  · exact update_parents fun _ => rfl

theorem positioned_isSome (e : Move) (w : Workspace) (id : String) :
    ((positioned e w).blocks id).isSome = (w.blocks id).isSome := by
  unfold positioned
  split
  · rfl
  · exact update_isSome e.id id _ w

theorem positioned_isShadow (e : Move) (w : Workspace) (id : String) :
    (positioned e w).IsShadow id ↔ w.IsShadow id := by
  unfold positioned
  split
  · rfl
  · exact update_isShadow (plain_setPosition _ _).shadow id

theorem positioned_holdsAt : (positioned e w).HoldsAt p input x ↔ w.HoldsAt p input x := by
  unfold positioned
  split
  · rfl
  · exact update_holdsAt (fun _ => rfl) fun _ => rfl

theorem positioned_freeAt (free : w.FreeAt p input) : (positioned e w).FreeAt p input := by
  unfold positioned
  split
  · exact free
  · exact update_freeAt (fun _ => rfl) (fun _ => rfl) free

theorem positioned_slotAt {name : String} {slot : Slot} (there : w.SlotAt p name slot) :
    (positioned e w).SlotAt p name slot := by
  unfold positioned
  split
  · exact there
  · exact update_slotAt (fun _ => rfl) there

theorem taken_isSome (e : Move) (w : Workspace) (id : String) :
    ((taken e w).blocks id).isSome = (w.blocks id).isSome := by
  unfold taken
  split
  · rfl
  · rw [update_isSome, update_isSome]

theorem taken_isShadow (e : Move) (w : Workspace) (id : String) : (taken e w).IsShadow id ↔ w.IsShadow id := by
  unfold taken
  split
  · rfl
  · rw [update_isShadow (relinks_setParent (x := e.id) none).shadow,
      update_isShadow (relinks_unplugAt e.oldInput e.id).shadow]

theorem taken_freeAt (free : w.FreeAt p input) : (taken e w).FreeAt p input := by
  unfold taken
  split
  · exact free
  · exact update_freeAt (fun _ => rfl) (fun _ => rfl) (update_freeAt_unplugAt free)

theorem Coherent.giveWay (coherent : w.Coherent holder) {name : String} (oldParent : e.oldParent = some p)
    (oldInput : e.oldInput = some name) (newParent : e.newParent = none) (present : (w.blocks e.id).isSome)
    (shows : w.SlotAt p name ⟨some e.id, some e.id⟩) : (arrived e (taken e w)).Coherent holder := by
  obtain ⟨old, found, lookup⟩ := shows
  simp only [arrived, taken, oldParent, oldInput, newParent, unplugAt]
  have children : ∀ e', w.blocks p = some e' → (unplug name e').children.Perm e'.children := by
    intro e' found'
    rw [found] at found'
    cases found'
    exact unplug_shadow_children lookup rfl rfl
  have linked := coherent.toLinked.update_same (relinks_unplug name e.id) children
  have loose := ((coherent.loose e.id).update (relinks_unplug name e.id) (unplugAt_parent (some name))
    (unplugAt_topLevel (some name)) linked fun _ _ => rfl).setParent none
  have there : ((w.update p (unplug name)).blocks e.id).isSome := by
    rw [update_isSome]
    exact present
  obtain ⟨own, placed⟩ := Option.isSome_iff_exists.mp there
  have root : ((w.update p (unplug name)).update e.id (.setParent none)).parents e.id = none := by
    rw [parents_some (update_found placed)]
    rfl
  have slot : (w.update p (unplug name)).SlotAt p name ⟨none, some e.id⟩ := by
    refine ⟨_, update_found found, ?_⟩
    rw [unplug_lookup, if_pos rfl, lookup]
    rfl
  apply loose.settle_root (by rwa [update_isSome]) root
  right
  rw [addScript_parents]
  have after : ((w.update p (unplug name)).update e.id (.setParent none)).SlotAt p name ⟨none, some e.id⟩ :=
    update_slotAt (fun _ => rfl) slot
  have still : Workspace.SlotAt (((w.update p (unplug name)).update e.id (.setParent none)).addScript e.id) p name
      ⟨none, some e.id⟩ := by
    unfold Workspace.addScript
    split
    · exact after
    · exact update_slotAt (f := setTopLevel true) (fun _ => rfl) after
  exact ⟨root, still.obscured⟩

theorem Coherent.comeBack (coherent : w.Coherent holder) {name : String} (oldParent : e.oldParent = none)
    (newParent : e.newParent = some q) (newInput : e.newInput = some name) (present : (w.blocks e.id).isSome)
    (obscured : w.SlotAt q name ⟨none, some e.id⟩) : (arrived e (taken e w)).Coherent holder := by
  have held := coherent.toLinked.holder_of_slotAt obscured
  have deleted := (coherent.loose e.id).deleteScript
  simp only [arrived, taken, oldParent, newParent, newInput, plugAt]
  obtain ⟨new, found, lookup⟩ : (w.deleteScript e.id).SlotAt q name ⟨none, some e.id⟩ :=
    update_slotAt (f := setTopLevel false) (fun _ => rfl) obscured
  have children : ∀ e', (w.deleteScript e.id).blocks q = some e' → (plug name e.id e').children.Perm e'.children := by
    intro e' found'
    rw [found] at found'
    cases found'
    exact plug_shadow_children lookup rfl rfl
  have linked := deleted.toLinked.update_same (relinks_plug name e.id) children
  have plugged := deleted.update (relinks_plug name e.id) (plugAt_parent (some name) e.id)
    (plugAt_topLevel (some name) e.id) linked fun _ _ => rfl
  apply plugged.settle_under
  · rw [update_isSome]
    exact (update_isSome e.id e.id _ w).trans present
  · exact coherent.noDuplicates.not_mem_erase
  · exact held

/-- Where the editor wants the block, and where the others were. -/
structure Moved (e : Move) (w w' : Workspace) : Prop where
  places : ∀ p input c, w'.HoldsAt p input c ↔
    if c = e.id then e.newParent = some p ∧ e.newInput = input else w.HoldsAt p input c
  contents : ∀ id, (w'.blocks id).map Entry.content = (w.blocks id).map Entry.content

theorem HoldsAt.functional {c : String} (one : w.HoldsAt p input x) (two : w.HoldsAt p input c) : x = c := by
  obtain ⟨e, found, holds⟩ := one
  obtain ⟨e', found', holds'⟩ := two
  rw [found] at found'
  cases found'
  cases input with
  | none => exact Option.some.inj (Eq.trans (Eq.symm holds) holds')
  | some name =>
    obtain ⟨slot, lookup, block⟩ := holds
    obtain ⟨slot', lookup', block'⟩ := holds'
    rw [lookup] at lookup'
    cases lookup'
    exact Option.some.inj (block.symm.trans block')

theorem Linked.place_unique (linked : w.Linked holder) {other : Option String} (one : w.HoldsAt p input x)
    (two : w.HoldsAt q other x) : p = q ∧ input = other := by
  have same : p = q :=
    Option.some.inj ((linked.holder_of_holdsAt one).symm.trans (linked.holder_of_holdsAt two))
  subst same
  obtain ⟨e, found, holds⟩ := one
  obtain ⟨e', found', holds'⟩ := two
  rw [found] at found'
  cases found'
  have once := linked.once p
  rw [childrenOf_some found] at once
  exact ⟨rfl, holds.unique once holds'⟩

theorem Coherent.only_place (coherent : w.Coherent holder) (fits : w.Fits e) (holds : w.HoldsAt p input e.id) :
    e.oldParent = some p ∧ e.oldInput = input := by
  have held := coherent.toLinked.holder_of_holdsAt holds
  cases fits with
  | missing missing =>
    have present := (coherent.toLinked.held held).1
    simp [missing] at present
  | block present block stays leaves arrives =>
    cases old : e.oldParent with
    | none =>
      have named := coherent.toLinked.parents_eq (coherent.placed e.id) block
      rw [stays old, held] at named
      cases named
    | some q =>
      obtain ⟨rfl, rfl⟩ := coherent.toLinked.place_unique (leaves q old) holds
      exact ⟨rfl, rfl⟩
  | giveWay oldParent oldInput newParent shows =>
    obtain ⟨old, found, lookup⟩ := shows
    have there : w.HoldsAt _ e.oldInput e.id := ⟨old, found, by rw [oldInput]; exact ⟨_, lookup, rfl⟩⟩
    obtain ⟨rfl, rfl⟩ := coherent.toLinked.place_unique there holds
    exact ⟨oldParent, rfl⟩
  | comeBack oldParent newParent newInput obscured =>
    have same := held.symm.trans (coherent.toLinked.holder_of_slotAt obscured)
    cases same
    obtain ⟨parent, found, holds⟩ := holds
    obtain ⟨parent', found', lookup⟩ := obscured
    rw [found] at found'
    cases found'
    have once := coherent.once p
    rw [childrenOf_some found] at once
    exact absurd holds (HoldsAt.not_obscured once lookup)

theorem taken_holdsAt {c : String} : (taken e w).HoldsAt p input c ↔
    ¬ (e.oldParent = some p ∧ e.oldInput = input) ∧ w.HoldsAt p input c := by
  unfold taken
  cases old : e.oldParent with
  | none => simp
  | some q =>
    dsimp only
    rw [update_holdsAt (f := setParent none) (fun _ => rfl) fun _ => rfl, update_holdsAt_unplugAt]
    simp [eq_comm]

theorem arrived_holdsAt {c : String} (free : ∀ q, e.newParent = some q → w.FreeAt q e.newInput) :
    (arrived e w).HoldsAt p input c ↔ (c = e.id ∧ e.newParent = some p ∧ e.newInput = input) ∨ w.HoldsAt p input c := by
  unfold arrived
  cases new : e.newParent with
  | none =>
    simp only [reduceCtorEq, false_and, and_false, false_or]
    unfold addScript
    split
    · rfl
    · exact update_holdsAt (f := setTopLevel true) (fun _ => rfl) fun _ => rfl
  | some q =>
    have free' : (w.deleteScript e.id).FreeAt q e.newInput :=
      update_freeAt (f := setTopLevel false) (fun _ => rfl) (fun _ => rfl) (free q new)
    have same : (w.deleteScript e.id).HoldsAt p input c ↔ w.HoldsAt p input c :=
      update_holdsAt (f := setTopLevel false) (fun _ => rfl) fun _ => rfl
    dsimp only
    rw [update_holdsAt (f := setParent (some q)) (fun _ => rfl) fun _ => rfl, update_holdsAt_plugAt free', same]
    simp [eq_comm, and_comm, and_left_comm]

theorem Fits.free (fits : w.Fits e) (present : (w.blocks e.id).isSome) (q : String) (new : e.newParent = some q) :
    w.FreeAt q e.newInput := by
  cases fits with
  | missing missing => simp [missing] at present
  | block _ _ _ _ arrives => exact (arrives q new).1
  | giveWay _ _ newParent _ =>
    rw [newParent] at new
    cases new
  | comeBack oldParent newParent newInput obscured =>
    rw [newParent] at new
    cases new
    obtain ⟨parent, found, lookup⟩ := obscured
    refine ⟨parent, found, ?_⟩
    rw [newInput]
    intro slot found'
    rw [lookup] at found'
    cases found'
    rfl

theorem Fits.holdsAt (fits : w.Fits e) (present : (w.blocks e.id).isSome) (p : String) (old : e.oldParent = some p) :
    w.HoldsAt p e.oldInput e.id := by
  cases fits with
  | missing missing => simp [missing] at present
  | block _ _ _ leaves _ => exact leaves p old
  | giveWay oldParent oldInput _ shows =>
    rw [oldParent] at old
    cases old
    obtain ⟨parent, found, lookup⟩ := shows
    rw [oldInput]
    exact ⟨parent, found, _, lookup, rfl⟩
  | comeBack oldParent _ _ _ =>
    rw [oldParent] at old
    cases old

theorem update_content {f : Entry → Entry} (keeps : ∀ e, (f e).content = e.content) (id : String) :
    ((w.update p f).blocks id).map Entry.content = (w.blocks id).map Entry.content := by
  rw [update_blocks]
  split
  · rename_i same
    rw [same]
    cases w.blocks p <;> simp [keeps]
  · rfl

theorem arrived_content (e : Move) (w : Workspace) (id : String) :
    ((arrived e (taken e (positioned e w))).blocks id).map Entry.content = (w.blocks id).map Entry.content := by
  have first : ((positioned e w).blocks id).map Entry.content = (w.blocks id).map Entry.content := by
    unfold positioned
    split
    · rfl
    · exact update_content (f := setPosition _ _) (fun _ => rfl) id
  have second : ((taken e (positioned e w)).blocks id).map Entry.content =
      ((positioned e w).blocks id).map Entry.content := by
    unfold taken
    split
    · rfl
    · rw [update_content (f := setParent none) fun _ => rfl, update_content (unplugAt_content e.oldInput)]
  rw [← first, ← second]
  unfold arrived
  split
  · unfold addScript
    split
    · rfl
    · exact update_content (f := setTopLevel true) (fun _ => rfl) id
  · rw [update_content (f := setParent _) fun _ => rfl, update_content (plugAt_content e.newInput e.id)]
    exact update_content (f := setTopLevel false) (fun _ => rfl) id

theorem Coherent.moved (coherent : w.Coherent holder) (fits : w.Fits e) (present : (w.blocks e.id).isSome) :
    Moved e w (arrived e (taken e (Workspace.positioned e w))) := by
  refine ⟨fun p input c => ?_, arrived_content e w⟩
  rw [arrived_holdsAt fun q new => taken_freeAt (positioned_freeAt (fits.free present q new)), taken_holdsAt,
    positioned_holdsAt]
  split
  · rename_i same
    rw [same]
    constructor
    · intro either
      rcases either with ⟨_, new⟩ | ⟨elsewhere, holds⟩
      · exact new
      · exact absurd (coherent.only_place fits holds) elsewhere
    · exact fun new => .inl ⟨rfl, new⟩
  · rename_i other
    constructor
    · intro either
      rcases either with ⟨same, _⟩ | ⟨_, holds⟩
      · exact absurd same other
      · exact holds
    · intro holds
      refine .inr ⟨fun old => other ?_, holds⟩
      obtain ⟨old, rfl⟩ := old
      exact holds.functional (fits.holdsAt present p old)

/-- A move of the editor does not fail, and keeps the workspace coherent. -/
theorem Coherent.moveBlock (coherent : w.Coherent holder) (fits : w.Fits e) (present : (w.blocks e.id).isSome) :
    ∃ w' holder', (moveBlock e).run w = .ok () w' ∧ w'.Coherent holder' ∧ Moved e w w' := by
  have moved := coherent.moved fits present
  have positioned := coherent.positioned (e := e)
  have run : (Workspace.moveBlock e).run w = .ok () (arrived e (taken e (Workspace.positioned e w))) := by
    refine run_moveBlock present (fun p old => positioned_holdsAt.mpr (fits.holdsAt present p old)) fun q new => ?_
    obtain ⟨parent, found, _⟩ := fits.free present q new
    simp [found]
  have present' : ((Workspace.positioned e w).blocks e.id).isSome := by rwa [positioned_isSome]
  cases fits with
  | missing missing => simp [missing] at present
  | block _ block stays leaves arrives =>
    have block' : ¬ (Workspace.positioned e w).IsShadow e.id := (positioned_isShadow e w e.id).not.mpr block
    obtain ⟨taken, root⟩ := (positioned.loose e.id).takenBlock block'
      (fun none => by rw [positioned_parents]; exact stays none)
      (fun p old => positioned_holdsAt.mpr (leaves p old)) (positioned.placed e.id)
    refine ⟨_, _, run, taken.arrivedBlock (Function.update_self _ _ _) ((taken_isShadow e _ e.id).not.mpr block')
      (by rwa [taken_isSome]) root fun q new => ?_, moved⟩
    obtain ⟨free, apart⟩ := arrives q new
    refine ⟨taken_freeAt (positioned_freeAt free), fun below => apart (coherent.toLinked.inside_iff.mpr ?_)⟩
    apply below.mono
    intro c p named
    by_cases same : c = e.id
    · rw [same, Function.update_self] at named
      cases named
    · rwa [Function.update_of_ne same] at named
  | giveWay oldParent oldInput newParent shows =>
    exact ⟨_, _, run, positioned.giveWay oldParent oldInput newParent present' (positioned_slotAt shows), moved⟩
  | comeBack oldParent newParent newInput obscured =>
    exact ⟨_, _, run, positioned.comeBack oldParent newParent newInput present' (positioned_slotAt obscured), moved⟩

end Moves

end Workspace

end ArRobotCode.Scratch
