import Mathlib.Data.List.Sort
import ArRobotCode.Scratch.Vm

namespace ArRobotCode.Scratch

/-- An input: the block plugged into it, and the shadow that shows where none is. -/
structure Slot where
  block : Option String
  shadow : Option String
deriving DecidableEq

structure Field where
  value : String
  id : Option String := none
  variableType : Option String := none
deriving DecidableEq

/-- A node of a parsed document, whose tags have lower-case names. -/
inductive Dom where
  | text (data : String)
  | tag (name : String) (attribs : List (String × String)) (children : List Dom)

inductive MutationTag where
  | object (tagName : String) (properties : List (String × String)) (children : List MutationTag)

structure Entry where
  opcode : Option String
  fields : List (String × Field) := []
  inputs : List (String × Slot) := []
  next : Option String := none
  topLevel : Bool := false
  parent : Option String := none
  shadow : Bool := false
  x : JsValue := .undefined
  y : JsValue := .undefined
  comment : Option String := none
  mutation : Option MutationTag := none

/-- Assigns to a property of an object: the last properties are the newest ones. -/
def assignKey {ν : Type} (name : String) (value : ν) : List (String × ν) → List (String × ν)
  | [] => [(name, value)]
  | (other, old) :: rest => if other = name then (name, value) :: rest else (other, old) :: assignKey name value rest

/-- The index that a key of an object spells, if it spells one the way an index is printed. -/
def arrayIndex (key : String) : Option Nat :=
  key.toNat?.filter fun index => toString index = key ∧ index < 4294967295

/-- The properties of an object as a loop goes through them: the indices in their order, before all other keys. -/
def enumerate {ν : Type} (properties : List (String × ν)) : List (String × ν) :=
  (properties.filter fun property => (arrayIndex property.1).isSome).insertionSort
      (fun one other => (arrayIndex one.1).getD 0 ≤ (arrayIndex other.1).getD 0) ++
    properties.filter fun property => !(arrayIndex property.1).isSome

/-- What the adapter takes from elsewhere: the package that decodes entities, and the ids that it draws. -/
class Host where
  decodeHtml : String → String
  uid : Nat → String

namespace Adapter

variable [Host]

section Mutations

mutual

def mutatorTagToObject : Dom → Except Fault MutationTag
  | .text _ => throw .typeError
  | .tag name attribs children => do
    let properties := (attribs.filter (·.1 ≠ "xmlns")).map fun (prop, value) => (prop, Host.decodeHtml value)
    return .object name properties (← mutatorTagsToObjects children)

def mutatorTagsToObjects : List Dom → Except Fault (List MutationTag)
  | [] => return []
  | dom :: rest => return (← mutatorTagToObject dom) :: (← mutatorTagsToObjects rest)

end

end Mutations

abbrev Build (α : Type) := StateT Nat (Except Fault) α

def drawId : Build String := do
  let drawn ← get
  set (drawn + 1)
  return Host.uid drawn

def blockId (attribs : List (String × String)) : Build String :=
  match attribs.lookup "id" with
  | none => drawId
  | some id => if id = "" then drawId else return id

def position (attribs : List (String × String)) (coordinate : String) : JsValue :=
  match attribs.lookup coordinate with
  | none => .undefined
  | some value => .text value

/-- A missing attribute names the property "undefined". -/
def nameAttribute (attribs : List (String × String)) : String := (attribs.lookup "name").getD "undefined"

def fieldData : List Dom → String
  | .text data :: _ => data
  | _ => ""

def withField (attribs : List (String × String)) (children : List Dom) (block : Entry) : Entry :=
  let field : Field := ⟨fieldData children, attribs.lookup "id", attribs.lookup "variabletype"⟩
  { block with fields := assignKey (nameAttribute attribs) field block.fields }

/-- Builds a block and the blocks in it, outermost first, when told whether it is a top block and its parent. -/
abbrev Builder := Bool → Option String → Build (String × List (String × Entry))

/-- An input is built from its block and its shadow; the shadow stands in for a missing block. -/
def buildInput (attribs : List (String × String)) (id : String) (childBlock childShadow : Option Builder)
    (block : Entry) : Build (Entry × List (String × Entry)) := do
  let inputName := nameAttribute attribs
  match childBlock, childShadow with
  | none, none => throw .typeError
  | some node, none =>
    let (child, inner) ← node false (some id)
    return ({ block with inputs := assignKey inputName ⟨some child, none⟩ block.inputs }, inner)
  | none, some node =>
    let (child, inner) ← node false (some id)
    return ({ block with inputs := assignKey inputName ⟨some child, some child⟩ block.inputs }, inner)
  | some node, some shadowNode =>
    let (child, inner) ← node false (some id)
    let (shadow, obscured) ← shadowNode false (some id)
    return ({ block with inputs := assignKey inputName ⟨some child, some shadow⟩ block.inputs }, inner ++ obscured)

def buildNext (id : String) (childBlock childShadow : Option Builder) (block : Entry) :
    Build (Entry × List (String × Entry)) := do
  match childBlock.or childShadow with
  | none => return (block, [])
  | some node =>
    let (child, inner) ← node false (some id)
    return ({ block with next := some child }, inner)

def readTag (name : String) (attribs : List (String × String)) (children : List Dom)
    (childBlock childShadow : Option Builder) (id : String) (block : Entry) : Build (Entry × List (String × Entry)) :=
  match name with
  | "field" => return (withField attribs children block, [])
  | "comment" => return ({ block with comment := attribs.lookup "id" }, [])
  | "value" | "statement" => buildInput attribs id childBlock childShadow block
  | "next" => buildNext id childBlock childShadow block
  | "mutation" => do
    let mutation ← mutatorTagToObject (.tag name attribs children)
    return ({ block with mutation := some mutation }, [])
  | _ => return (block, [])

mutual

def domToBlock : Dom → Builder
  | .text _ => fun _ _ => throw .typeError
  | .tag name attribs children => fun isTopBlock parent => do
    let id ← blockId attribs
    let block : Entry := { opcode := attribs.lookup "type", topLevel := isTopBlock, parent, shadow := name = "shadow",
                           x := position attribs "x", y := position attribs "y" }
    let (block, inner) ← xmlChildren children id block
    return (id, (id, block) :: inner)

/-- Processes the children of a block's tag, with the enclosed blocks in their order. -/
def xmlChildren : List Dom → String → Entry → Build (Entry × List (String × Entry))
  | [] => fun _ block => return (block, [])
  | .text _ :: _ => fun _ _ => throw .typeError
  | .tag name attribs children :: rest => fun id block => do
    let (childBlock, childShadow) := grandChildren children
    let (block, inner) ← readTag name attribs children childBlock childShadow id block
    let (block, others) ← xmlChildren rest id block
    return (block, inner ++ others)

def grandChildren : List Dom → Option Builder × Option Builder
  | [] => (none, none)
  | .text _ :: rest => grandChildren rest
  | .tag name attribs children :: rest =>
    let (childBlock, childShadow) := grandChildren rest
    if name = "block" then (childBlock.or (some (domToBlock (.tag name attribs children))), childShadow)
    else if name = "shadow" then (childBlock, childShadow.or (some (domToBlock (.tag name attribs children))))
    else (childBlock, childShadow)

end

def topBlocks : List Dom → Build (List (String × Entry))
  | [] => return []
  | .text _ :: rest => topBlocks rest
  | .tag name attribs children :: rest => do
    if name = "block" ∨ name = "shadow" then
      let (_, blocks) ← domToBlock (.tag name attribs children) true none
      return blocks ++ (← topBlocks rest)
    else topBlocks rest

/-- Of two blocks with one id the later stands in the place of the earlier. -/
def domToBlocks (blocksDOM : List Dom) : Build (List (String × Entry)) := do
  let blocks := (← topBlocks blocksDOM).foldl (fun blocks (id, block) => assignKey id block blocks) []
  return enumerate blocks

end Adapter

end ArRobotCode.Scratch
