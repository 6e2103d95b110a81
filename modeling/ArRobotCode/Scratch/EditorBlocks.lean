import Mathlib.Data.List.DropRight
import ArRobotCode.Scratch.EntryLinks

namespace ArRobotCode.Scratch

structure EditorField where
  name : String
  value : String
  /-- The id and the type of the variable that the field refers to. -/
  reference : Option (String × String) := none

/-- A block of the editor without its connections. -/
structure EditorBlock where
  id : String
  type : String
  isShadow : Bool := false
  fields : List EditorField := []
  /-- The id of the comment and its text. -/
  comment : Option (String × String) := none
  /-- The attributes of the mutation. -/
  mutation : List (String × String) := []

inductive Layer where
  | stack | inputs

/-- Blocks of the editor with what their connections lead to. -/
inductive EditorTree : Layer → Type where
  | nothing : EditorTree .stack
  | block (data : EditorBlock) (inputs : EditorTree .inputs) (next : EditorTree .stack) : EditorTree .stack
  | noInputs : EditorTree .inputs
  /-- An input with the block in it and the shadow that the block obscures. -/
  | input (name : String) (statement : Bool) (target shadow : EditorTree .stack) (rest : EditorTree .inputs) :
      EditorTree .inputs

namespace EditorField

def toDom (field : EditorField) : Dom :=
  let container : List Dom := if field.value = "" then [] else [.text field.value]
  match field.reference with
  | none => .tag "field" [("name", field.name)] container
  | some (id, variableType) => .tag "field" [("name", field.name), ("id", id), ("variabletype", variableType)] container

end EditorField

/-- White space and line terminators of JavaScript. -/
def isSpace (c : Char) : Bool :=
  c.toNat ∈ [0x9, 0xA, 0xB, 0xC, 0xD, 0x20, 0xA0, 0x1680, 0x2028, 0x2029, 0x202F, 0x205F, 0x3000, 0xFEFF] ∨
    0x2000 ≤ c.toNat ∧ c.toNat ≤ 0x200A

/-- Takes away the blanks before the ends of lines. -/
def trimLines : List Char → List Char
  | [] => []
  | c :: rest =>
    let rest := trimLines rest
    if c = ' ' ∧ rest.head? = some '\n' then rest else c :: rest

namespace EditorBlock

def mutationToDom (block : EditorBlock) : List Dom :=
  if block.mutation.isEmpty then [] else [.tag "mutation" block.mutation []]

def getCommentText (block : EditorBlock) : String :=
  match block.comment with
  | none => ""
  | some (_, text) => String.ofList (trimLines (text.toList.rdropWhile isSpace))

/-- A comment of blanks is not written. -/
def scratchCommentToDom (block : EditorBlock) : List Dom :=
  match block.comment with
  | none => []
  | some (id, _) => if block.getCommentText = "" then [] else [.tag "comment" [("id", id)] [.text block.getCommentText]]

def toDom (block : EditorBlock) (connections : List Dom) (position : List (String × String)) : Dom :=
  .tag (if block.isShadow then "shadow" else "block") (("type", block.type) :: ("id", block.id) :: position)
    (block.mutationToDom ++ block.fields.map (·.toDom) ++ block.scratchCommentToDom ++ connections)

end EditorBlock

namespace EditorTree

def head? : EditorTree .stack → Option EditorBlock
  | nothing => none
  | block data _ _ => some data

def startsWithShadow (tree : EditorTree .stack) : Bool := tree.head?.any (·.isShadow)

def nextTag (nextBlock : List Dom) : List Dom := if nextBlock.isEmpty then [] else [.tag "next" [] nextBlock]

/-- An empty input is not written, even when it has a shadow. -/
def toDom : {layer : Layer} → EditorTree layer → List Dom
  | _, nothing => []
  | _, block data inputs next => [data.toDom (inputs.toDom ++ nextTag next.toDom) []]
  | _, noInputs => []
  | _, input name statement target shadow rest =>
    (if target.head?.isSome then
      [.tag (if statement then "statement" else "value") [("name", name)]
        ((if target.startsWithShadow then [] else shadow.toDom) ++ target.toDom)]
    else []) ++ rest.toDom

def toDomWithXY (x y : String) : EditorTree .stack → List Dom
  | nothing => []
  | block data inputs next =>
    [data.toDom (inputs.toDom ++ nextTag next.toDom) [("x", x), ("y", y)]]

def ids : {layer : Layer} → EditorTree layer → List String
  | _, nothing => []
  | _, block data inputs next => data.id :: (inputs.ids ++ next.ids)
  | _, noInputs => []
  | _, input _ _ target shadow rest =>
    (if target.head?.isSome then target.ids ++ (if target.startsWithShadow then [] else shadow.ids) else []) ++ rest.ids

def roots : {layer : Layer} → EditorTree layer → List String
  | _, nothing => []
  | _, block data _ _ => [data.id]
  | _, noInputs => []
  | _, input _ _ target shadow rest =>
    (if target.head?.isSome then target.roots ++ (if target.startsWithShadow then [] else shadow.roots) else []) ++
      rest.roots

def inputNames : {layer : Layer} → EditorTree layer → List String
  | _, nothing => []
  | _, block _ _ _ => []
  | _, noInputs => []
  | _, input name _ _ _ rest => name :: rest.inputNames

/-- What the editor keeps to: every block has an id, the inputs of a block have different names, and a shadow is what
    an input shows when it is empty. -/
def WellFormed : {layer : Layer} → EditorTree layer → Prop
  | _, nothing => True
  | _, block data inputs next => data.id ≠ "" ∧ inputs.inputNames.Nodup ∧ inputs.WellFormed ∧ next.WellFormed
  | _, noInputs => True
  | _, input _ _ target shadow rest =>
    (∀ first, shadow.head? = some first → first.isShadow = true) ∧ target.WellFormed ∧ shadow.WellFormed ∧
      rest.WellFormed

def slots : {layer : Layer} → EditorTree layer → List (String × Slot)
  | _, nothing => []
  | _, block _ _ _ => []
  | _, noInputs => []
  | _, input name _ target shadow rest =>
    match target.head? with
    | none => rest.slots
    | some first =>
      let shown := if first.isShadow then some first.id else shadow.head?.map (·.id)
      (name, ⟨some first.id, shown⟩) :: rest.slots

end EditorTree

def EditorField.read (field : EditorField) : String × Field :=
  (field.name, ⟨field.value, field.reference.map (·.1), field.reference.map (·.2)⟩)

def EditorBlock.readMutation [Host] (block : EditorBlock) : Option MutationTag :=
  if block.mutation.isEmpty then none
  else some (.object "mutation"
    ((block.mutation.filter (·.1 ≠ "xmlns")).map fun (prop, value) => (prop, Host.decodeHtml value)) [])

def EditorBlock.readComment (block : EditorBlock) : Option String :=
  match block.comment with
  | none => none
  | some (id, _) => if block.getCommentText = "" then none else some id

def EditorBlock.entry [Host] (data : EditorBlock) (topLevel : Bool) (parent : Option String) (x y : JsValue) : Entry :=
  { opcode := some data.type
    fields := (data.fields.map (·.read)).foldl (fun fields (name, field) => assignKey name field fields) []
    topLevel, parent, x, y
    shadow := data.isShadow
    comment := data.readComment
    mutation := data.readMutation }

namespace EditorTree

def link (inputs : EditorTree .inputs) (next : EditorTree .stack) (entry : Entry) : Entry :=
  { entry with inputs := inputs.slots, next := next.head?.map (·.id) }

def entries [Host] : {layer : Layer} → EditorTree layer → String → List (String × Entry)
  | _, nothing, _ => []
  | _, block data inputs next, parent =>
    (data.id, inputs.link next (data.entry false (some parent) .undefined .undefined)) ::
      (inputs.entries data.id ++ next.entries data.id)
  | _, noInputs, _ => []
  | _, input _ _ target shadow rest, parent =>
    (if target.head?.isSome then
      target.entries parent ++ (if target.startsWithShadow then [] else shadow.entries parent)
    else []) ++ rest.entries parent

def topEntries [Host] (x y : String) : EditorTree .stack → List (String × Entry)
  | nothing => []
  | block data inputs next =>
    (data.id, inputs.link next (data.entry true none (.text x) (.text y))) ::
      (inputs.entries data.id ++ next.entries data.id)

end EditorTree

end ArRobotCode.Scratch
