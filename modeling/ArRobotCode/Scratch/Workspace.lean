import ArRobotCode.Library.Triples
import ArRobotCode.Scratch.Adapter

namespace ArRobotCode.Scratch

open Trapping

/-- The blocks that an input holds, in the order in which they are deleted. -/
def Slot.held (slot : Slot) : List String :=
  slot.block.toList ++ if slot.shadow = slot.block then [] else slot.shadow.toList

namespace Entry

def children (e : Entry) : List String :=
  e.next.toList ++ e.inputs.flatMap fun input => input.2.held

def setParent (parent : Option String) (e : Entry) : Entry := { e with parent }

def setTopLevel (topLevel : Bool) (e : Entry) : Entry := { e with topLevel }

def setNext (next : Option String) (e : Entry) : Entry := { e with next }

def setPosition (x y : JsValue) (e : Entry) : Entry := { e with x, y }

def setMutation (mutation : MutationTag) (e : Entry) : Entry := { e with mutation := some mutation }

/-- The new input keeps the shadow of the old one. -/
def plug (name : String) (id : String) (e : Entry) : Entry :=
  let oldShadow := (e.inputs.lookup name).bind (·.shadow)
  { e with inputs := assignKey name ⟨some id, oldShadow⟩ e.inputs }

def unplug (name : String) (e : Entry) : Entry :=
  match e.inputs.lookup name with
  | none => e
  | some slot => { e with inputs := assignKey name { slot with block := none } e.inputs }

/-- A field of a variable takes the variable's id as its value, and `variableName` is what the variable is called. -/
def setField (name value : String) (variableName : Option String) (e : Entry) : Entry :=
  match e.fields.lookup name with
  | none => e
  | some field =>
    if name = "VARIABLE" ∨ name = "LIST" ∨ name = "BROADCAST_OPTION" then
      match variableName with
      | none => e
      | some variableName =>
        { e with fields := assignKey name { field with value := variableName, id := some value } e.fields }
    else { e with fields := assignKey name { field with value } e.fields }

end Entry

/-- The container of the blocks; `drawn` counts the ids that the adapter has drawn. -/
structure Workspace where
  blocks : String → Option Entry := fun _ => none
  scripts : List String := []
  drawn : Nat := 0

abbrev Edit (α : Type) := EStateM Fault Workspace α

structure Move where
  id : String
  oldParent : Option String := none
  oldInput : Option String := none
  newParent : Option String := none
  newInput : Option String := none
  newCoordinate : Option (JsValue × JsValue) := none

inductive Change where
  | field (name value : String) (variableName : Option String)
  /-- With the first node of the new mutation. -/
  | mutation (document : Option Dom)

inductive Event where
  | create (xml : List Dom)
  | change (blockId : String) (change : Change)
  | move (e : Move)
  | delete (blockId : String)

namespace Workspace

def update (id : String) (f : Entry → Entry) (w : Workspace) : Workspace :=
  { w with blocks := Function.update w.blocks id ((w.blocks id).map f) }

def addScript (topBlockId : String) (w : Workspace) : Workspace :=
  if topBlockId ∈ w.scripts then w
  else { w.update topBlockId (.setTopLevel true) with scripts := w.scripts ++ [topBlockId] }

def deleteScript (topBlockId : String) (w : Workspace) : Workspace :=
  { w.update topBlockId (.setTopLevel false) with scripts := w.scripts.erase topBlockId }

def createBlock (id : String) (block : Entry) (w : Workspace) : Workspace :=
  if (w.blocks id).isSome then w
  else
    let created : Workspace := { w with blocks := Function.update w.blocks id (some block) }
    if block.topLevel then created.addScript id else created

def createBlocks (newBlocks : List (String × Entry)) (w : Workspace) : Workspace :=
  newBlocks.foldl (fun w (id, block) => w.createBlock id block) w

def assign (id : String) (f : Entry → Entry) : Edit Unit := do
  if ((← get).blocks id).isSome then modify (update id f)
  else throw .typeError

def changeBlock [Host] (id : String) (change : Change) : Edit Unit := do
  if ((← get).blocks id).isNone then
    return ()
  match change with
  | .field name value variableName => modify (update id (.setField name value variableName))
  | .mutation none => throw .typeError
  | .mutation (some dom) =>
    match Adapter.mutatorTagToObject dom with
    | .error fault => throw fault
    | .ok mutation => modify (update id (.setMutation mutation))

def removeFromOldParent (e : Move) (oldParent : String) : Edit Unit := do
  match (← get).blocks oldParent with
  | none => throw .typeError
  | some block =>
    let removeNext : Edit Unit :=
      if block.next = some e.id then modify (update oldParent (.setNext none)) else return ()
    match e.oldInput with
    | none => removeNext
    | some name =>
      match block.inputs.lookup name with
      | none => throw .typeError
      | some slot => if slot.block = some e.id then modify (update oldParent (.unplug name)) else removeNext
  modify (update e.id (.setParent none))

def connectToNewParent (e : Move) (newParent : String) : Edit Unit := do
  modify (deleteScript e.id)
  match e.newInput with
  | none => assign newParent (.setNext (some e.id))
  | some name => assign newParent (.plug name e.id)
  modify (update e.id (.setParent (some newParent)))

def takeCoordinate (e : Move) : Edit Unit :=
  match e.newCoordinate with
  | none => return ()
  | some (x, y) => modify (update e.id (.setPosition x y))

def leaveOldPlace (e : Move) : Edit Unit :=
  match e.oldParent with
  | none => return ()
  | some oldParent => removeFromOldParent e oldParent

def enterNewPlace (e : Move) : Edit Unit :=
  match e.newParent with
  | none => modify (addScript e.id)
  | some newParent => connectToNewParent e newParent

def moveBlock (e : Move) : Edit Unit := do
  if ((← get).blocks e.id).isNone then
    return ()
  takeCoordinate e
  leaveOldPlace e
  enterNewPlace e

/-- The recursion of the source has no bound; `fuel` bounds how deep it goes. -/
def deleteBlock : Nat → String → Edit Unit
  | 0, _ => throw .outOfFuel
  | fuel + 1, blockId => do
    match (← get).blocks blockId with
    | none => return ()
    | some block =>
      runAll (deleteBlock fuel) block.children
      modify (deleteScript blockId)
      modify fun w => { w with blocks := Function.update w.blocks blockId none }

def blocklyListen [Host] (fuel : Nat) : Event → Edit Unit
  | .create xml => do
    let w ← get
    match (Adapter.domToBlocks xml).run w.drawn with
    | .error fault => throw fault
    | .ok (newBlocks, drawn) => set ({ w with drawn }.createBlocks newBlocks)
  | .change blockId change => changeBlock blockId change
  | .move e => moveBlock e
  | .delete blockId => do
    match (← get).blocks blockId with
    | none => return ()
    | some block => if block.shadow then return () else deleteBlock fuel blockId

def topOf (w : Workspace) : Nat → String → Except Fault String
  | 0, _ => throw .outOfFuel
  | fuel + 1, id =>
    match w.blocks id with
    | none => throw .typeError
    | some block =>
      match block.parent with
      | none => return id
      | some parent => w.topOf fuel parent

def getTopLevelScript (w : Workspace) (fuel : Nat) (id : String) : Except Fault (Option String) := do
  if (w.blocks id).isNone then
    return none
  return some (← w.topOf fuel id)

end Workspace

end ArRobotCode.Scratch
