import Mathlib.Data.List.Nodup
import Mathlib.Data.List.Pairwise
import ArRobotCode.Scratch.Workspace

namespace ArRobotCode.Scratch

section Properties

variable {name : String}

theorem lookup_assignKey {ν : Type} (name other : String) (value : ν) (list : List (String × ν)) :
    (assignKey name value list).lookup other = if other = name then some value else list.lookup other := by
  induction list with
  | nil =>
    by_cases same : other = name
    · simp [assignKey, same]
    · have skip : (other == name) = false := by simpa using same
      simp [assignKey, List.lookup_cons, same, skip]
  | cons entry rest ih =>
    obtain ⟨key, old⟩ := entry
    by_cases here : key = name
    · subst here
      by_cases same : other = key
      · simp [assignKey, same]
      · have skip : (other == key) = false := by simpa using same
        simp [assignKey, List.lookup_cons, same, skip]
    · by_cases same : other = key
      · have differ : other ≠ name := fun both => here (same ▸ both)
        subst same
        simp [assignKey, here]
      · have skip : (other == key) = false := by simpa using same
        simp [assignKey, here, List.lookup_cons, skip, ih]

theorem mem_assignKey {ν : Type} {entry : String × ν} {value : ν} {list : List (String × ν)}
    (member : entry ∈ assignKey name value list) : entry = (name, value) ∨ entry ∈ list := by
  induction list with
  | nil => exact .inl (List.mem_singleton.mp member)
  | cons first rest ih =>
    obtain ⟨key, old⟩ := first
    by_cases here : key = name
    · simp only [assignKey, here, if_true, List.mem_cons] at member
      rcases member with same | inside
      · exact .inl same
      · exact .inr (List.mem_cons_of_mem _ inside)
    · simp only [assignKey, here, if_false, List.mem_cons] at member
      rcases member with same | inside
      · exact .inr (same ▸ List.mem_cons_self)
      · exact (ih inside).imp_right (List.mem_cons_of_mem _)

theorem self_mem_assignKey {ν : Type} (name : String) (value : ν) (list : List (String × ν)) :
    (name, value) ∈ assignKey name value list := by
  induction list with
  | nil => simp [assignKey]
  | cons first rest ih =>
    obtain ⟨key, old⟩ := first
    by_cases here : key = name <;> simp [assignKey, here, ih]

theorem mem_assignKey_of_mem {ν : Type} (name : String) (value : ν) {entry : String × ν} {list : List (String × ν)}
    (member : entry ∈ list) : entry ∈ assignKey name value list ∨ list.lookup name = some entry.2 := by
  induction list with
  | nil => cases member
  | cons first rest ih =>
    obtain ⟨key, old⟩ := first
    by_cases here : key = name
    · subst here
      rcases List.mem_cons.mp member with same | inside
      · right
        simp [same]
      · left
        simp [assignKey, inside]
    · have skip : (name == key) = false := by simpa using Ne.symm here
      simp only [assignKey, here, if_false, List.lookup_cons, skip, List.mem_cons]
      rcases List.mem_cons.mp member with same | inside
      · exact .inl (.inl same)
      · exact (ih inside).imp_left .inr

theorem assignKey_names {ν : Type} (name : String) (value : ν) (list : List (String × ν))
    (distinct : (list.map (·.1)).Nodup) : ((assignKey name value list).map (·.1)).Nodup := by
  induction list with
  | nil => simp [assignKey]
  | cons entry rest ih =>
    obtain ⟨other, old⟩ := entry
    obtain ⟨fresh, distinctRest⟩ := List.nodup_cons.mp distinct
    by_cases here : other = name
    · subst here
      simpa [assignKey] using distinct
    · simp only [assignKey, here, if_false, List.map_cons, List.nodup_cons]
      refine ⟨fun member => ?_, ih distinctRest⟩
      obtain ⟨entry, inside, key⟩ := List.mem_map.mp member
      rcases mem_assignKey inside with same | old
      · rw [same] at key
        exact here key.symm
      · exact fresh (List.mem_map.mpr ⟨entry, old, key⟩)

theorem assignKey_new {ν : Type} (value : ν) {list : List (String × ν)} (fresh : name ∉ list.map (·.1)) :
    assignKey name value list = list ++ [(name, value)] := by
  induction list with
  | nil => rfl
  | cons first rest ih =>
    obtain ⟨key, old⟩ := first
    simp only [List.map_cons, List.mem_cons, not_or] at fresh
    simp [assignKey, Ne.symm fresh.1, ih fresh.2]

theorem foldl_assignKey {ν : Type} (added list : List (String × ν)) (distinct : ((list ++ added).map (·.1)).Nodup) :
    added.foldl (fun list (name, value) => assignKey name value list) list = list ++ added := by
  induction added generalizing list with
  | nil => simp
  | cons first rest ih =>
    obtain ⟨key, value⟩ := first
    have fresh : key ∉ list.map (·.1) := by
      intro member
      rw [List.map_append] at distinct
      exact (List.nodup_append.mp distinct).2.2 key member key (by simp) rfl
    rw [List.foldl_cons]
    dsimp only
    rw [assignKey_new value fresh]
    have whole := ih (list ++ [(key, value)]) (by simpa using distinct)
    simpa using whole

theorem mem_of_lookup {ν : Type} {value : ν} {list : List (String × ν)} (found : list.lookup name = some value) :
    (name, value) ∈ list := by
  induction list with
  | nil => cases found
  | cons first rest ih =>
    obtain ⟨key, old⟩ := first
    by_cases here : name = key
    · subst here
      simp only [List.lookup_cons, beq_self_eq_true, Option.some.injEq] at found
      rw [found]
      exact List.mem_cons_self
    · have skip : (name == key) = false := by simpa using here
      rw [List.lookup_cons, skip] at found
      exact List.mem_cons_of_mem _ (ih found)

end Properties

namespace Entry

/-- An input of the block shows the shadow, or would if it were empty. -/
def Shades (e : Entry) (c : String) : Prop := ∃ input ∈ e.inputs, input.2.shadow = some c

def Obscures (e : Entry) (c : String) : Prop := ∃ input ∈ e.inputs, input.2.shadow = some c ∧ input.2.block ≠ some c

def content (e : Entry) : Option String × List (String × Field) × Bool × Option String × Option MutationTag :=
  (e.opcode, e.fields, e.shadow, e.comment, e.mutation)

/-- A change that takes no input's shadow away and obscures no shadow less, but for `x`. -/
structure Relinks (x : String) (f : Entry → Entry) : Prop where
  shadow : ∀ e, (f e).shadow = e.shadow
  names : ∀ e, (e.inputs.map (·.1)).Nodup → ((f e).inputs.map (·.1)).Nodup
  shades : ∀ e c, (f e).Shades c → e.Shades c
  obscures : ∀ e c, c ≠ x → e.Obscures c → (f e).Obscures c

structure Plain (f : Entry → Entry) : Prop where
  parent : ∀ e, (f e).parent = e.parent
  topLevel : ∀ e, (f e).topLevel = e.topLevel
  next : ∀ e, (f e).next = e.next
  inputs : ∀ e, (f e).inputs = e.inputs
  shadow : ∀ e, (f e).shadow = e.shadow

/-- What the block's next connection holds, or an input of it. -/
def HoldsAt (e : Entry) : Option String → String → Prop
  | none, x => e.next = some x
  | some name, x => ∃ slot, e.inputs.lookup name = some slot ∧ slot.block = some x

def FreeAt (e : Entry) : Option String → Prop
  | none => e.next = none
  | some name => ∀ slot, e.inputs.lookup name = some slot → slot.block = none

def plugAt : Option String → String → Entry → Entry
  | none, x => setNext (some x)
  | some name, x => plug name x

def unplugAt : Option String → Entry → Entry
  | none => setNext none
  | some name => unplug name

section Changes

variable {x : String} {f : Entry → Entry}

theorem Relinks.of_inputs (inputs : ∀ e, (f e).inputs = e.inputs) (shadow : ∀ e, (f e).shadow = e.shadow) :
    Relinks x f := by
  refine ⟨shadow, fun e distinct => ?_, fun e c shades => ?_, fun e c _ obscures => ?_⟩
  · rwa [inputs]
  · unfold Shades at *
    rwa [inputs] at shades
  · unfold Obscures at *
    rwa [inputs]

theorem Plain.relinks (plain : Plain f) : Relinks x f := .of_inputs plain.inputs plain.shadow

theorem Plain.children (plain : Plain f) (e : Entry) : (f e).children = e.children := by
  rw [Entry.children, plain.next, plain.inputs, Entry.children]

theorem relinks_setParent (parent : Option String) : Relinks x (setParent parent) :=
  .of_inputs (fun _ => rfl) fun _ => rfl

theorem relinks_setTopLevel (topLevel : Bool) : Relinks x (setTopLevel topLevel) :=
  .of_inputs (fun _ => rfl) fun _ => rfl

theorem relinks_setNext (next : Option String) : Relinks x (setNext next) := .of_inputs (fun _ => rfl) fun _ => rfl

theorem plain_setPosition (left top : JsValue) : Plain (setPosition left top) :=
  ⟨fun _ => rfl, fun _ => rfl, fun _ => rfl, fun _ => rfl, fun _ => rfl⟩

theorem plain_setMutation (mutation : MutationTag) : Plain (setMutation mutation) :=
  ⟨fun _ => rfl, fun _ => rfl, fun _ => rfl, fun _ => rfl, fun _ => rfl⟩

theorem plain_setField (name value : String) (variableName : Option String) :
    Plain (setField name value variableName) := by
  have only : ∀ e, ∃ fields, setField name value variableName e = { e with fields } := by
    intro e
    unfold setField
    split
    · exact ⟨e.fields, rfl⟩
    · split
      · split
        · exact ⟨e.fields, rfl⟩
        · exact ⟨_, rfl⟩
      · exact ⟨_, rfl⟩
  constructor <;> intro e <;> obtain ⟨fields, same⟩ := only e <;> rw [same]

end Changes

section Inputs

variable {name : String}

theorem held_assignKey {slot : Slot} {old : Slot} {inputs : List (String × Slot)} {first second : List String}
    (found : inputs.lookup name = some old) (perm : (first ++ slot.held).Perm (second ++ old.held)) :
    (first ++ (assignKey name slot inputs).flatMap fun input => input.2.held).Perm
      (second ++ inputs.flatMap fun input => input.2.held) := by
  induction inputs with
  | nil => cases found
  | cons entry rest ih =>
    obtain ⟨key, value⟩ := entry
    by_cases here : key = name
    · subst here
      simp only [List.lookup_cons, beq_self_eq_true, Option.some.injEq] at found
      subst found
      simp only [assignKey, if_true, List.flatMap_cons, ← List.append_assoc]
      exact perm.append_right _
    · have skip : (name == key) = false := by simpa using Ne.symm here
      simp only [List.lookup_cons, skip] at found
      simp only [assignKey, here, if_false, List.flatMap_cons]
      have moved := ih found
      have swap : ∀ (a b c : List String), (a ++ (b ++ c)).Perm (b ++ (a ++ c)) := by
        intro a b c
        rw [← List.append_assoc, ← List.append_assoc]
        exact List.perm_append_comm.append_right c
      exact (swap _ _ _).trans ((moved.append_left _).trans (swap _ _ _))

theorem held_assignKey_new {slot : Slot} {inputs : List (String × Slot)} (missing : inputs.lookup name = none) :
    ((assignKey name slot inputs).flatMap fun input => input.2.held) =
      (inputs.flatMap fun input => input.2.held) ++ slot.held := by
  induction inputs with
  | nil => simp [assignKey]
  | cons entry rest ih =>
    obtain ⟨key, value⟩ := entry
    by_cases here : key = name
    · subst here
      simp at missing
    · have skip : (name == key) = false := by simpa using Ne.symm here
      simp only [List.lookup_cons, skip] at missing
      simp [assignKey, here, ih missing]

end Inputs

section Plugs

variable {name x : String} {e : Entry}

theorem relinks_plug (name x : String) : Relinks x (plug name x) := by
  refine ⟨fun _ => rfl, fun e => assignKey_names name _ e.inputs, fun e c shades => ?_, fun e c other obscures => ?_⟩
  · obtain ⟨input, member, shadow⟩ := shades
    rcases mem_assignKey member with rfl | old
    · cases found : e.inputs.lookup name with
      | none => simp [found] at shadow
      | some slot =>
        rw [found] at shadow
        exact ⟨(name, slot), mem_of_lookup found, shadow⟩
    · exact ⟨input, old, shadow⟩
  · obtain ⟨input, member, shadow, differ⟩ := obscures
    rcases mem_assignKey_of_mem name ⟨some x, (e.inputs.lookup name).bind (·.shadow)⟩ member with still | found
    · exact ⟨input, still, shadow, differ⟩
    · refine ⟨_, self_mem_assignKey name _ e.inputs, ?_, ?_⟩
      · simp [found, shadow]
      · simpa using Ne.symm other

theorem relinks_unplug (name x : String) : Relinks x (unplug name) := by
  have cases : ∀ e, unplug name e = e ∨ ∃ slot, e.inputs.lookup name = some slot ∧
      unplug name e = { e with inputs := assignKey name { slot with block := none } e.inputs } := by
    intro e
    unfold unplug
    split
    · exact .inl rfl
    · rename_i slot found
      exact .inr ⟨slot, found, rfl⟩
  refine ⟨fun e => ?_, fun e distinct => ?_, fun e c shades => ?_, fun e c _ obscures => ?_⟩
  · rcases cases e with same | ⟨slot, _, same⟩ <;> rw [same]
  · rcases cases e with same | ⟨slot, _, same⟩
    · rwa [same]
    · rw [same]
      exact assignKey_names name _ e.inputs distinct
  · rcases cases e with same | ⟨slot, found, same⟩
    · rwa [same] at shades
    · rw [same] at shades
      obtain ⟨input, member, shadow⟩ := shades
      rcases mem_assignKey member with rfl | old
      · exact ⟨(name, slot), mem_of_lookup found, shadow⟩
      · exact ⟨input, old, shadow⟩
  · rcases cases e with same | ⟨slot, found, same⟩
    · rwa [same]
    · rw [same]
      obtain ⟨input, member, shadow, differ⟩ := obscures
      rcases mem_assignKey_of_mem name { slot with block := none } member with still | first
      · exact ⟨input, still, shadow, differ⟩
      · rw [found] at first
        cases first
        exact ⟨_, self_mem_assignKey name _ e.inputs, shadow, by simp⟩

theorem setNext_children (free : e.next = none) : (e.setNext (some x)).children = x :: e.children := by
  simp [children, setNext, free]

theorem children_setNext (here : e.next = some x) : e.children = x :: (e.setNext none).children := by
  simp [children, setNext, here]

theorem plug_children (free : ∀ slot, e.inputs.lookup name = some slot → slot.block = none)
    (unshaded : ¬ e.Shades x) : (e.plug name x).children.Perm (x :: e.children) := by
  cases found : e.inputs.lookup name with
  | none =>
    have held : (⟨some x, none⟩ : Slot).held = [x] := rfl
    simp only [children, plug, found, Option.bind_none, held_assignKey_new found, held, ← List.append_assoc]
    exact List.perm_append_singleton _ _
  | some slot =>
    have empty := free slot found
    have other : slot.shadow ≠ some x := fun same => unshaded ⟨(name, slot), mem_of_lookup found, same⟩
    have held : (e.next.toList ++ (⟨some x, slot.shadow⟩ : Slot).held).Perm (x :: e.next.toList ++ slot.held) := by
      cases shadow : slot.shadow with
      | none =>
        simp only [Slot.held, empty, shadow, Option.toList, List.append_nil, reduceCtorEq, if_false, if_true]
        exact List.perm_append_singleton _ _
      | some s =>
        have apart : s ≠ x := fun same => other (by rw [shadow, same])
        simp only [Slot.held, empty, shadow, Option.toList, Option.some.injEq, apart, reduceCtorEq, if_false,
          List.nil_append]
        exact List.perm_middle
    simp only [children, plug, found, Option.bind_some]
    exact held_assignKey found held

theorem children_unplug {slot : Slot} (found : e.inputs.lookup name = some slot) (here : slot.block = some x)
    (other : slot.shadow ≠ some x) : e.children.Perm (x :: (e.unplug name).children) := by
  simp only [children, unplug, found]
  have held : (x :: e.next.toList ++ ({ slot with block := none } : Slot).held).Perm (e.next.toList ++ slot.held) := by
    cases shadow : slot.shadow with
    | none =>
      simp only [Slot.held, here, shadow, Option.toList, List.append_nil, reduceCtorEq, if_false, if_true]
      exact (List.perm_append_singleton _ _).symm
    | some s =>
      have apart : s ≠ x := fun same => other (by rw [shadow, same])
      simp only [Slot.held, here, shadow, Option.toList, Option.some.injEq, apart, reduceCtorEq, if_false,
        List.nil_append]
      exact List.perm_middle.symm
  exact (held_assignKey found held).symm

theorem unplug_shadow_children {slot : Slot} (found : e.inputs.lookup name = some slot) (here : slot.block = some x)
    (shadow : slot.shadow = some x) : (e.unplug name).children.Perm e.children := by
  simp only [children, unplug, found]
  apply held_assignKey found
  simp [Slot.held, here, shadow]

theorem plug_shadow_children {slot : Slot} (found : e.inputs.lookup name = some slot) (here : slot.block = none)
    (shadow : slot.shadow = some x) : (e.plug name x).children.Perm e.children := by
  simp only [children, plug, found]
  apply held_assignKey found
  simp [Slot.held, here, shadow]

end Plugs

section Places

variable {input other : Option String} {x c : String} {e : Entry}

theorem relinks_plugAt (input : Option String) (x : String) : Relinks x (plugAt input x) := by
  cases input with
  | none => exact relinks_setNext (some x)
  | some name => exact relinks_plug name x

theorem relinks_unplugAt (input : Option String) (x : String) : Relinks x (unplugAt input) := by
  cases input with
  | none => exact relinks_setNext none
  | some name => exact relinks_unplug name x

@[simp] theorem plugAt_parent (input : Option String) (x : String) (e : Entry) :
    (plugAt input x e).parent = e.parent := by
  cases input <;> rfl

@[simp] theorem plugAt_topLevel (input : Option String) (x : String) (e : Entry) :
    (plugAt input x e).topLevel = e.topLevel := by
  cases input <;> rfl

@[simp] theorem unplugAt_parent (input : Option String) (e : Entry) : (unplugAt input e).parent = e.parent := by
  cases input with
  | none => rfl
  | some name =>
    simp only [unplugAt, unplug]
    split <;> rfl

@[simp] theorem unplugAt_topLevel (input : Option String) (e : Entry) : (unplugAt input e).topLevel = e.topLevel := by
  cases input with
  | none => rfl
  | some name =>
    simp only [unplugAt, unplug]
    split <;> rfl

theorem plugAt_content (input : Option String) (x : String) (e : Entry) : (plugAt input x e).content = e.content := by
  cases input <;> rfl

theorem unplugAt_content (input : Option String) (e : Entry) : (unplugAt input e).content = e.content := by
  cases input with
  | none => rfl
  | some name =>
    simp only [unplugAt, unplug]
    split <;> rfl

theorem plugAt_children (free : e.FreeAt input) (unshaded : ¬ e.Shades x) :
    (plugAt input x e).children.Perm (x :: e.children) := by
  cases input with
  | none => exact .of_eq (setNext_children free)
  | some name => exact plug_children free unshaded

theorem children_unplugAt (holds : e.HoldsAt input x) (unshaded : ¬ e.Shades x) :
    e.children.Perm (x :: (unplugAt input e).children) := by
  cases input with
  | none => exact .of_eq (children_setNext holds)
  | some name =>
    obtain ⟨slot, found, here⟩ := holds
    exact children_unplug found here fun shadow => unshaded ⟨(name, slot), mem_of_lookup found, shadow⟩

theorem unplug_lookup (name other : String) (e : Entry) : (unplug name e).inputs.lookup other =
    if other = name then (e.inputs.lookup name).map ({ · with block := none }) else e.inputs.lookup other := by
  unfold unplug
  split
  · rename_i missing
    split
    · rename_i same
      rw [same, missing]
      rfl
    · rfl
  · rename_i slot found
    rw [lookup_assignKey, found]
    rfl

theorem unplugAt_holdsAt : (unplugAt input e).HoldsAt other c ↔ other ≠ input ∧ e.HoldsAt other c := by
  cases input with
  | none =>
    cases other with
    | none => simp [HoldsAt, unplugAt, setNext]
    | some m => simp [HoldsAt, unplugAt, setNext]
  | some n =>
    cases other with
    | none =>
      have next : (unplug n e).next = e.next := by
        unfold unplug
        split <;> rfl
      simp [HoldsAt, unplugAt, next]
    | some m =>
      simp only [HoldsAt, unplugAt, unplug_lookup, ne_eq, Option.some.injEq]
      by_cases same : m = n
      · cases e.inputs.lookup n <;> simp [same]
      · simp [same]

theorem unplugAt_freeAt (free : e.FreeAt other) : (unplugAt input e).FreeAt other := by
  cases input with
  | none =>
    cases other with
    | none => rfl
    | some m => exact free
  | some n =>
    cases other with
    | none =>
      simp only [FreeAt, unplugAt, unplug] at free ⊢
      split <;> exact free
    | some m =>
      intro slot found
      rw [unplugAt, unplug_lookup] at found
      split at found
      · obtain ⟨old, _, rfl⟩ := Option.map_eq_some_iff.mp found
        rfl
      · exact free slot found

theorem plugAt_holdsAt (free : e.FreeAt input) :
    (plugAt input x e).HoldsAt other c ↔ other = input ∧ c = x ∨ e.HoldsAt other c := by
  cases input with
  | none =>
    cases other with
    | none =>
      have empty : e.next = none := free
      simp [HoldsAt, plugAt, setNext, empty, eq_comm]
    | some m => simp [HoldsAt, plugAt, setNext]
  | some n =>
    cases other with
    | none => simp [HoldsAt, plugAt, plug]
    | some m =>
      simp only [HoldsAt, plugAt, plug, lookup_assignKey, Option.some.injEq]
      by_cases same : m = n
      · subst same
        have empty : ∀ slot, e.inputs.lookup m = some slot → slot.block ≠ some c := by
          intro slot found
          simp [free slot found]
        simp only [if_true, Option.some.injEq, exists_eq_left', true_and, eq_comm (a := c)]
        constructor
        · exact fun here => .inl here
        · intro either
          rcases either with here | ⟨slot, found, holds⟩
          · exact here
          · exact absurd holds (empty slot found)
      · simp [same]

theorem held_apart {n m : String} {s t : Slot} (once : e.children.Nodup) (one : (n, s) ∈ e.inputs)
    (two : (m, t) ∈ e.inputs) (first : x ∈ s.held) (second : x ∈ t.held) : (n, s) = (m, t) := by
  obtain ⟨_, inputs, _⟩ := List.nodup_append.mp once
  have apart := (List.nodup_flatMap.mp inputs).2
  have symm : Std.Symm (Function.onFun List.Disjoint fun input : String × Slot => input.2.held) :=
    ⟨fun _ _ disjoint _ second first => disjoint first second⟩
  by_contra differ
  exact apart.forall one two differ first second

theorem next_apart {m : String} {t : Slot} (once : e.children.Nodup) (next : e.next = some x)
    (member : (m, t) ∈ e.inputs) : x ∉ t.held := by
  obtain ⟨_, _, apart⟩ := List.nodup_append.mp once
  intro held
  exact apart x (by simp [next]) x (List.mem_flatMap.mpr ⟨(m, t), member, held⟩) rfl

theorem HoldsAt.unique (once : e.children.Nodup) (one : e.HoldsAt input x) (two : e.HoldsAt other x) :
    input = other := by
  have held : ∀ {slot : Slot}, slot.block = some x → x ∈ slot.held := fun block => by simp [Slot.held, block]
  cases input with
  | none =>
    cases other with
    | none => rfl
    | some m =>
      obtain ⟨slot, found, block⟩ := two
      exact absurd (held block) (next_apart once one (mem_of_lookup found))
  | some n =>
    obtain ⟨s, found, block⟩ := one
    cases other with
    | none => exact absurd (held block) (next_apart once two (mem_of_lookup found))
    | some m =>
      obtain ⟨t, found', block'⟩ := two
      have same := held_apart once (mem_of_lookup found) (mem_of_lookup found') (held block) (held block')
      rw [(Prod.mk.inj same).1]

theorem HoldsAt.not_obscured {n : String} (once : e.children.Nodup) (lookup : e.inputs.lookup n = some ⟨none, some x⟩) :
    ¬ e.HoldsAt other x := by
  have obscured : x ∈ (⟨none, some x⟩ : Slot).held := by simp [Slot.held]
  intro holds
  cases other with
  | none => exact next_apart once holds (mem_of_lookup lookup) obscured
  | some m =>
    obtain ⟨t, found, block⟩ := holds
    have same := held_apart once (mem_of_lookup lookup) (mem_of_lookup found) obscured (by simp [Slot.held, block])
    rw [← (Prod.mk.inj same).2] at block
    cases block

end Places

end Entry

end ArRobotCode.Scratch
