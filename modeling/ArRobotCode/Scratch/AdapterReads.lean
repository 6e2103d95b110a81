import ArRobotCode.Scratch.EditorBlocks

namespace ArRobotCode.Scratch

open Adapter

theorem pure_eq_ok {α : Type} (value : α) : (pure value : Except Fault α) = .ok value := rfl

def prepend (inner : List (String × Entry)) (built : Except Fault ((Entry × List (String × Entry)) × Nat)) :
    Except Fault ((Entry × List (String × Entry)) × Nat) :=
  built.map fun ((block, others), drawn) => ((block, inner ++ others), drawn)

theorem prepend_nil (built : Except Fault ((Entry × List (String × Entry)) × Nat)) : prepend [] built = built := by
  cases built <;> rfl

theorem prepend_append (one two : List (String × Entry))
    (built : Except Fault ((Entry × List (String × Entry)) × Nat)) :
    prepend (one ++ two) built = prepend one (prepend two built) := by
  cases built <;> simp [prepend, Except.map]

theorem ok_bind {α β : Type} (value : α) (f : α → Except Fault β) : (Except.ok value >>= f) = f value := rfl

theorem enumerate_perm {ν : Type} (properties : List (String × ν)) : (enumerate properties).Perm properties := by
  have sorted := List.perm_insertionSort
    (fun one other : String × ν => (arrayIndex one.1).getD 0 ≤ (arrayIndex other.1).getD 0)
    (properties.filter fun property => (arrayIndex property.1).isSome)
  have whole := List.filter_append_perm (fun property : String × ν => (arrayIndex property.1).isSome) properties
  exact (sorted.append_right _).trans whole

namespace EditorTree

theorem slots_names {layer : Layer} (tree : EditorTree layer) : (tree.slots.map (·.1)).Sublist tree.inputNames := by
  induction tree with
  | nothing => exact .refl _
  | block _ _ _ _ _ => exact .refl _
  | noInputs => exact .refl _
  | input name statement target shadow rest _ _ ih =>
    cases first : target.head? with
    | none =>
      simp only [slots, first, inputNames]
      exact ih.cons name
    | some first' =>
      simp only [slots, first, inputNames, List.map_cons]
      exact ih.cons_cons name

end EditorTree

variable [Host]

/-- The tags make the one block of the other, and the given blocks in it, and draw no ids. -/
def Reads (id : String) (tags : List Dom) (block block' : Entry) (inner : List (String × Entry)) : Prop :=
  ∀ more n, (xmlChildren (tags ++ more) id block).run n = prepend inner ((xmlChildren more id block').run n)

namespace Reads

variable {id : String} {tags tags' : List Dom} {block block' block'' : Entry} {inner inner' : List (String × Entry)}

theorem nil (id : String) (block : Entry) : Reads id [] block block [] := fun _ _ => (prepend_nil _).symm

theorem append (first : Reads id tags block block' inner) (second : Reads id tags' block' block'' inner') :
    Reads id (tags ++ tags') block block'' (inner ++ inner') := by
  intro more n
  rw [List.append_assoc, first, second, prepend_append]

theorem run (reads : Reads id tags block block' inner) (n : Nat) :
    (xmlChildren tags id block).run n = .ok ((block', inner), n) := by
  have whole := reads [] n
  rw [List.append_nil] at whole
  rw [whole]
  simp [xmlChildren, prepend, Except.map, pure_eq_ok]

theorem tag {name : String} {attribs : List (String × String)} {children : List Dom}
    (step : ∀ n, (readTag name attribs children (grandChildren children).1 (grandChildren children).2 id block).run n =
      .ok ((block', inner), n)) : Reads id [.tag name attribs children] block block' inner := by
  intro more n
  change (xmlChildren (.tag name attribs children :: more) id block).run n = _
  rw [xmlChildren, StateT.run_bind, step]
  change ((xmlChildren more id block').run n >>= fun r => .ok ((r.1.1, inner ++ r.1.2), r.2)) = _
  cases (xmlChildren more id block').run n <;> rfl

theorem field (field : EditorField) :
    Reads id [field.toDom] block { block with fields := assignKey field.name field.read.2 block.fields } [] := by
  have data : fieldData (if field.value = "" then [] else [.text field.value]) = field.value := by
    split
    · rename_i empty
      rw [empty]
      rfl
    · rfl
  unfold EditorField.toDom
  cases reference : field.reference with
  | none =>
    apply tag
    intro n
    simp [readTag, withField, nameAttribute, EditorField.read, reference, data, pure_eq_ok]
  | some pair =>
    apply tag
    intro n
    simp [readTag, withField, nameAttribute, EditorField.read, reference, data, List.lookup_cons, pure_eq_ok]

theorem fields (fields : List EditorField) :
    Reads id (fields.map (·.toDom)) block { block with
      fields := (fields.map (·.read)).foldl (fun fields (name, field) => assignKey name field fields)
        block.fields } [] := by
  induction fields generalizing block with
  | nil => exact nil id block
  | cons first rest ih => exact (field first).append ih

theorem mutation (data : EditorBlock) (fresh : block.mutation = none) :
    Reads id data.mutationToDom block { block with mutation := data.readMutation } [] := by
  unfold EditorBlock.mutationToDom EditorBlock.readMutation
  split
  · rw [← fresh]
    exact nil id block
  · apply tag
    intro n
    simp [readTag, mutatorTagToObject, mutatorTagsToObjects, pure_eq_ok]
    rfl

theorem comment (data : EditorBlock) (fresh : block.comment = none) :
    Reads id data.scratchCommentToDom block { block with comment := data.readComment } [] := by
  unfold EditorBlock.scratchCommentToDom EditorBlock.readComment
  cases data.comment with
  | none =>
    rw [← fresh]
    exact nil id block
  | some comment =>
    dsimp only
    split
    · rw [← fresh]
      exact nil id block
    · apply tag
      intro n
      simp [readTag, pure_eq_ok]

end Reads

namespace EditorBlock

theorem run_domToBlock (data : EditorBlock) (named : data.id ≠ "") {connections : List Dom}
    {inputs : List (String × Slot)} {next : Option String} {inner : List (String × Entry)}
    (reads : ∀ block : Entry, block.inputs = [] → block.next = none →
      Reads data.id connections block { block with inputs, next } inner)
    (place : List (String × String)) (topLevel : Bool) (parent : Option String) (n : Nat) :
    (domToBlock (data.toDom connections place) topLevel parent).run n =
      .ok ((data.id,
        (data.id, { data.entry topLevel parent (position place "x") (position place "y") with inputs, next }) ::
          inner), n) := by
  have own : ∀ block : Entry, block.fields = [] → block.mutation = none → block.comment = none → block.inputs = [] →
      block.next = none →
      Reads data.id (data.mutationToDom ++ data.fields.map (·.toDom) ++ data.scratchCommentToDom ++ connections) block
        { block with
          fields := (data.fields.map (·.read)).foldl (fun fields (name, field) => assignKey name field fields) []
          mutation := data.readMutation
          comment := data.readComment
          inputs, next } inner := by
    intro block fields mutation comment noInputs noNext
    have own : Reads data.id data.mutationToDom block _ _ := Reads.mutation data mutation
    have whole := ((own.append (Reads.fields data.fields)).append (Reads.comment data comment)).append
      (reads _ noInputs noNext)
    rw [fields] at whole
    exact whole
  have found : blockId (("type", data.type) :: ("id", data.id) :: place) = pure data.id := by
    simp [blockId, List.lookup_cons, named]
  unfold toDom
  rw [domToBlock, found]
  simp only [pure_bind]
  rw [StateT.run_bind, (own _ rfl rfl rfl rfl rfl).run]
  simp [EditorBlock.entry, position, List.lookup_cons, pure_eq_ok, ok_bind]

end EditorBlock

namespace EditorTree

variable {data : EditorBlock} {inputs : EditorTree .inputs} {next : EditorTree .stack}

def ReadBack : {layer : Layer} → EditorTree layer → Prop
  | .stack, tree => ∀ data inputs next, tree = .block data inputs next → ∀ place topLevel parent n,
    (domToBlock (data.toDom (inputs.toDom ++ nextTag next.toDom) place) topLevel parent).run n =
      .ok ((data.id,
        (data.id, inputs.link next (data.entry topLevel parent (position place "x") (position place "y"))) ::
          (inputs.entries data.id ++ next.entries data.id)), n)
  | .inputs, tree => ∀ id block, Reads id tree.toDom block
    { block with inputs := tree.slots.foldl (fun inputs (name, slot) => assignKey name slot inputs) block.inputs }
    (tree.entries id)

theorem grandChildren_toDom (data : EditorBlock) (connections : List Dom) (place : List (String × String))
    (rest : List Dom) : grandChildren (data.toDom connections place :: rest) =
      let built := domToBlock (data.toDom connections place)
      if data.isShadow then ((grandChildren rest).1, (grandChildren rest).2.or (some built))
      else ((grandChildren rest).1.or (some built), (grandChildren rest).2) := by
  unfold EditorBlock.toDom
  rw [grandChildren]
  cases data.isShadow <;> simp

theorem reads_next (read : next.ReadBack) (id : String) (block : Entry) (free : block.next = none) :
    Reads id (nextTag next.toDom) block { block with next := next.head?.map (·.id) } (next.entries id) := by
  cases next with
  | nothing =>
    have same : { block with next := none } = block := by rw [← free]
    simpa [nextTag, toDom, head?, entries, same] using Reads.nil id block
  | block data inputs after =>
    have tagged :
        nextTag (toDom (.block data inputs after)) = [.tag "next" [] (toDom (.block data inputs after))] := rfl
    rw [tagged]
    apply Reads.tag
    intro n
    have built := read data inputs after rfl [] false (some id) n
    have node :
        (grandChildren (toDom (.block data inputs after))).1.or (grandChildren (toDom (.block data inputs after))).2 =
          some (domToBlock (data.toDom (inputs.toDom ++ nextTag after.toDom) [])) := by
      rw [toDom, grandChildren_toDom]
      cases data.isShadow <;> simp [grandChildren]
    simp only [readTag, buildNext, node]
    rw [StateT.run_bind, built]
    rfl

theorem reads_connections (distinct : (inputs.slots.map (·.1)).Nodup) (readInputs : inputs.ReadBack)
    (readNext : next.ReadBack) (id : String) (block : Entry) (noInputs : block.inputs = [])
    (noNext : block.next = none) :
    Reads id (inputs.toDom ++ nextTag next.toDom) block
      { block with inputs := inputs.slots, next := next.head?.map (·.id) }
      (inputs.entries id ++ next.entries id) := by
  have first := readInputs id block
  rw [noInputs, foldl_assignKey inputs.slots [] distinct] at first
  exact first.append (reads_next readNext id _ noNext)

theorem reads_input (name : String) (statement : Bool) {shadow : EditorTree .stack} {after : EditorTree .stack}
    (shadows : ∀ first, shadow.head? = some first → first.isShadow = true)
    (readTarget : (block data inputs after).ReadBack) (readShadow : shadow.ReadBack) (id : String) (entry : Entry) :
    Reads id [.tag (if statement then "statement" else "value") [("name", name)]
        ((if data.isShadow then [] else shadow.toDom) ++ (block data inputs after).toDom)] entry
      { entry with inputs :=
          assignKey name ⟨some data.id, if data.isShadow then some data.id else shadow.head?.map (·.id)⟩ entry.inputs }
      ((block data inputs after).entries id ++ (if data.isShadow then [] else shadow.entries id)) := by
  apply Reads.tag
  intro n
  have target := readTarget data inputs after rfl [] false (some id) n
  have read : ∀ childBlock childShadow, readTag (if statement then "statement" else "value") [("name", name)]
      ((if data.isShadow then [] else shadow.toDom) ++ (block data inputs after).toDom)
        childBlock childShadow id entry =
        buildInput [("name", name)] id childBlock childShadow entry := by
    intro childBlock childShadow
    cases statement <;> rfl
  rw [read, toDom]
  cases own : data.isShadow with
  | true =>
    rw [if_pos rfl, if_pos rfl, if_pos rfl, List.nil_append, grandChildren_toDom, own]
    simp only [grandChildren, if_true, Option.none_or, buildInput]
    rw [StateT.run_bind, target]
    simp only [entries, List.append_nil]
    rfl
  | false =>
    simp only [Bool.false_eq_true, if_false]
    cases shadow with
    | nothing =>
      rw [toDom, List.nil_append, grandChildren_toDom, own]
      simp only [grandChildren, Bool.false_eq_true, if_false, Option.none_or, buildInput]
      rw [StateT.run_bind, target]
      simp only [entries, List.append_nil]
      rfl
    | block shadowData shadowInputs shadowNext =>
      have obscured := readShadow shadowData shadowInputs shadowNext rfl [] false (some id) n
      rw [toDom, List.cons_append, List.nil_append, grandChildren_toDom, grandChildren_toDom, own,
        shadows shadowData rfl]
      simp only [grandChildren, Bool.false_eq_true, if_false, if_true, Option.none_or, buildInput]
      rw [StateT.run_bind, target]
      rw [ok_bind, StateT.run_bind, obscured]
      rfl

theorem readBack {layer : Layer} (tree : EditorTree layer) (wellFormed : tree.WellFormed) : tree.ReadBack := by
  induction tree with
  | nothing =>
    intro data inputs next same
    cases same
  | block data inputs next ihInputs ihNext =>
    intro data' inputs' next' same place topLevel parent n
    cases same
    obtain ⟨named, distinct, inputsFormed, nextFormed⟩ := wellFormed
    exact data.run_domToBlock named (fun entry noInputs noNext => reads_connections
      ((slots_names inputs).nodup distinct) (ihInputs inputsFormed) (ihNext nextFormed) data.id entry noInputs noNext)
      place topLevel parent n
  | noInputs => exact fun id entry => Reads.nil id entry
  | input name statement target shadow rest ihTarget ihShadow ihRest =>
    obtain ⟨shadows, targetFormed, shadowFormed, restFormed⟩ := wellFormed
    intro id entry
    cases target with
    | nothing => exact ihRest restFormed id entry
    | block data inputs after =>
      exact (reads_input name statement shadows (ihTarget targetFormed) (ihShadow shadowFormed) id entry).append
        (ihRest restFormed id _)

theorem entries_ids {layer : Layer} (tree : EditorTree layer) (parent : String) :
    (tree.entries parent).map (·.1) = tree.ids := by
  induction tree generalizing parent with
  | nothing => rfl
  | block data inputs next ihInputs ihNext => simp [entries, ids, ihInputs, ihNext]
  | noInputs => rfl
  | input name statement target shadow rest ihTarget ihShadow ihRest =>
    simp only [entries, ids, List.map_append, ihRest]
    congr 1
    cases target.head? with
    | none => rfl
    | some first =>
      simp only [Option.isSome_some, if_true, List.map_append, ihTarget]
      cases target.startsWithShadow <;> simp [ihShadow]

theorem topEntries_ids (x y : String) (tree : EditorTree .stack) : (tree.topEntries x y).map (·.1) = tree.ids := by
  cases tree with
  | nothing => rfl
  | block data inputs next => simp [topEntries, ids, entries_ids]

/-- What the editor writes of a block, the adapter reads back as the same block with the same blocks in it. -/
theorem run_domToBlocks (tree : EditorTree .stack) (wellFormed : tree.WellFormed) (distinct : tree.ids.Nodup)
    (x y : String) (n : Nat) :
    (domToBlocks (tree.toDomWithXY x y)).run n = .ok (enumerate (tree.topEntries x y), n) := by
  cases tree with
  | nothing => rfl
  | block data inputs next =>
    have built := readBack (block data inputs next) wellFormed data inputs next rfl [("x", x), ("y", y)] true none n
    have top : (topBlocks ((block data inputs next).toDomWithXY x y)).run n =
        .ok ((block data inputs next).topEntries x y, n) := by
      have named : (if data.isShadow then "shadow" else "block") = "block" ∨
          (if data.isShadow then "shadow" else "block") = "shadow" := by
        cases data.isShadow <;> simp
      unfold toDomWithXY EditorBlock.toDom
      rw [topBlocks, if_pos named, StateT.run_bind]
      unfold EditorBlock.toDom at built
      rw [built, ok_bind]
      simp [topBlocks, topEntries, position, List.lookup_cons, pure_eq_ok]
    unfold domToBlocks
    rw [StateT.run_bind, top, ok_bind]
    have keys : (([] ++ (block data inputs next).topEntries x y : List (String × Entry)).map (·.1)).Nodup := by
      rw [List.nil_append, topEntries_ids]
      exact distinct
    have assigned := foldl_assignKey ((block data inputs next).topEntries x y) [] keys
    simp only [StateT.run_pure]
    rw [assigned, List.nil_append]
    rfl

end EditorTree

end ArRobotCode.Scratch
