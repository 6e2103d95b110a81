import Mathlib.Data.Rat.Defs
import Mathlib.Algebra.Order.Ring.Rat
import ArRobotCode.Entities.DataLevel

namespace ArRobotCode

open Swift

/-- Coordinates are exact here; in the scene they are floats. -/
structure SCNVector3 where
  x : ℚ
  y : ℚ
  z : ℚ
deriving DecidableEq, Repr

structure SCNNode where
  position : SCNVector3 := ⟨0, 0, 0⟩
  scale : SCNVector3 := ⟨1, 1, 1⟩
  isHidden : Bool := false
  geometry : Option (List String) := none
  index : Option Nat := none
deriving DecidableEq, Repr

/-- The nodes that the scene file provides, the extent of the plane, and the tiles added to `customRoot`. -/
structure GameScene where
  customRoot : Option SCNNode := none
  tile : Option SCNNode := none
  player : Option SCNNode := none
  playerRoot : Option SCNNode := none
  finish : Option SCNNode := none
  earth : Option SCNNode := none
  moon : Option SCNNode := none
  planeAnchor : Option SCNVector3 := none
  tiles : List SCNNode := []
deriving DecidableEq, Repr

namespace GameScene

def TILE_SIZE : ℚ := 70

def setContents (newTile : SCNNode) (picture : String) : Method GameScene SCNNode := do
  match ← unwrap newTile.geometry with
  | [] => throw .unexpectedNil
  | _ :: others => return { newTile with geometry := some (picture :: others) }

def setColor (type : Int) (newTile : SCNNode) : Method GameScene SCNNode := do
  if type = TypeOfTile.start.rawValue then
    modify fun s => { s with
      playerRoot := s.playerRoot.map fun n =>
        { n with position := { n.position with x := newTile.position.x, z := newTile.position.z } } }
    setContents newTile "yellow"
  else if type = TypeOfTile.finish.rawValue then
    let newTile ← setContents newTile "yellow"
    modify fun s => { s with finish := some newTile }
    return newTile
  else if type = TypeOfTile.used.rawValue then setContents newTile "TileA.png"
  else if type = TypeOfTile.usedA.rawValue then setContents newTile "TileB.png"
  else if type = TypeOfTile.usedB.rawValue then setContents newTile "TileC.png"
  else if type = TypeOfTile.usedC.rawValue then setContents newTile "TileD.png"
  else if type = TypeOfTile.usedD.rawValue then setContents newTile "TileE.png"
  else if type = TypeOfTile.usedE.rawValue then setContents newTile "TileF.png"
  else return { newTile with isHidden := true }

/-- The body of the inner loop. The node is scaled first here, because `finish` shares it. -/
def spawnTile (level : DataLevel) (crtPos : Option SCNVector3) (index : Nat) : Method GameScene Unit := do
  let tile ← unwrap (← get).tile
  let position ← unwrap crtPos
  let scale : SCNVector3 := ⟨tile.scale.x * (97 / 100), tile.scale.y * (97 / 100), tile.scale.z * (97 / 100)⟩
  let newTile := { tile with index := some index, position := position, scale := scale, isHidden := false }
  let newTile ← setColor (← subscript level.tiles index).type newTile
  modify fun s => { s with tiles := s.tiles ++ [newTile] }

def spawnRow (level : DataLevel) : (columns : Nat) → Option SCNVector3 → (index : Nat) →
    Method GameScene (Option SCNVector3 × Nat)
  | 0, crtPos, index => return (crtPos, index)
  | columns + 1, crtPos, index => do
    spawnTile level crtPos index
    spawnRow level columns (crtPos.map fun p => { p with x := p.x + TILE_SIZE }) (index + 1)

def stepsTo (n : Int) : Method GameScene Nat := if n < 1 then throw .invalidRange else pure n.toNat

def spawnRows (level : DataLevel) (pos : Option SCNVector3) : (rows : Nat) → Option SCNVector3 → (index : Nat) →
    Method GameScene Unit
  | 0, _, _ => return
  | rows + 1, crtPos, index => do
    let (crtPos, index) ← spawnRow level (← stepsTo level.width) crtPos index
    let x := (← unwrap pos).x
    spawnRows level pos rows (crtPos.map fun p => { p with x := x, z := p.z + TILE_SIZE }) index

def setGamePosition (pos extent : SCNVector3) : Method GameScene Unit :=
  modify fun s => { s with
    customRoot := s.customRoot.map fun n => { n with position := pos }
    planeAnchor := some extent }

def firstPosition (level : DataLevel) (root : SCNVector3) : SCNVector3 :=
  ⟨root.x - TILE_SIZE * level.width.tdiv 2, root.y, root.z - TILE_SIZE * level.height.tdiv 2⟩

def showNodes : Method GameScene Unit := do
  modify fun s => { s with earth := s.earth.map fun n => { n with isHidden := false } }
  let _ ← unwrap (← get).earth
  let start := (← unwrap (← get).playerRoot).position
  modify fun s => { s with earth := s.earth.map fun n => { n with position := ⟨start.x, start.y + 100, start.z⟩ } }
  modify fun s => { s with moon := s.moon.map fun n => { n with isHidden := false } }
  let _ ← unwrap (← get).moon
  let finish := (← unwrap (← get).finish).position
  modify fun s => { s with moon := s.moon.map fun n => { n with position := ⟨finish.x, finish.y + 70, finish.z⟩ } }
  let _ ← unwrap (← get).player
  modify fun s => { s with player := s.player.map fun n => { n with isHidden := false } }

def spawnLevel (level : DataLevel) : Method GameScene Unit := do
  let extent ← unwrap (← get).planeAnchor
  let scaleX := extent.x * (97 / 100) / (TILE_SIZE * level.width)
  let scaleZ := extent.z * (97 / 100) / (TILE_SIZE * level.height)
  let scale := min scaleX scaleZ
  modify fun s => { s with customRoot := s.customRoot.map fun n => { n with scale := ⟨scale, scale, scale⟩ } }
  let pos := (← get).customRoot.map fun n => firstPosition level n.position
  spawnRows level pos (← stepsTo level.height) pos 0
  showNodes

end GameScene

end ArRobotCode
