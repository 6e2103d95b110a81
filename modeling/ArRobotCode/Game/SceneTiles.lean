import Mathlib.Tactic.Ring
import ArRobotCode.Game.EngineSteps
import ArRobotCode.Game.Scene

namespace ArRobotCode

open Swift GridWalk Trapping

namespace GameScene

def pictureOf (type : Int) : Option String :=
  if type = TypeOfTile.start.rawValue ∨ type = TypeOfTile.finish.rawValue then some "yellow"
  else if type = TypeOfTile.used.rawValue then some "TileA.png"
  else if type = TypeOfTile.usedA.rawValue then some "TileB.png"
  else if type = TypeOfTile.usedB.rawValue then some "TileC.png"
  else if type = TypeOfTile.usedC.rawValue then some "TileD.png"
  else if type = TypeOfTile.usedD.rawValue then some "TileE.png"
  else if type = TypeOfTile.usedE.rawValue then some "TileF.png"
  else none

def colored (newTile : SCNNode) (type : Int) : SCNNode :=
  match pictureOf type with
  | some picture => { newTile with geometry := newTile.geometry.map fun pictures => picture :: pictures.tail }
  | none => { newTile with isHidden := true }

def copied (tile : SCNNode) (position : SCNVector3) (index : Nat) : SCNNode :=
  { tile with
    index := some index
    position := position
    scale := ⟨tile.scale.x * (97 / 100), tile.scale.y * (97 / 100), tile.scale.z * (97 / 100)⟩
    isHidden := false }

def moved (node : SCNNode) (position : SCNVector3) : SCNNode :=
  { node with position := { node.position with x := position.x, z := position.z } }

def withTile (s : GameScene) (tile : SCNNode) (position : SCNVector3) (index : Nat) (type : Int) : GameScene :=
  { s with
    tiles := s.tiles ++ [colored (copied tile position index) type]
    playerRoot := if type = TypeOfTile.start.rawValue then s.playerRoot.map (moved · position) else s.playerRoot
    finish := if type = TypeOfTile.finish.rawValue then some (colored (copied tile position index) type) else s.finish }

theorem run_setContents {newTile : SCNNode} {material : String} {others : List String}
    (geometry : newTile.geometry = some (material :: others)) (picture : String) (s : GameScene) :
    (setContents newTile picture).run s = .ok { newTile with geometry := some (picture :: others) } s := by
  simp only [setContents, EStateM.run_bind, geometry, run_unwrap_some]
  rfl

theorem run_setColor {newTile : SCNNode} {material : String} {others : List String}
    (geometry : newTile.geometry = some (material :: others)) (type : Int) (s : GameScene) :
    (setColor type newTile).run s = .ok (colored newTile type) { s with
      playerRoot :=
        if type = TypeOfTile.start.rawValue then s.playerRoot.map (moved · newTile.position) else s.playerRoot
      finish := if type = TypeOfTile.finish.rawValue then some (colored newTile type) else s.finish } := by
  have run (picture : String) (s : GameScene) := run_setContents geometry picture s
  by_cases start : type = TypeOfTile.start.rawValue
  · subst start
    have notFinish : TypeOfTile.start.rawValue ≠ TypeOfTile.finish.rawValue := by decide
    simp [setColor, -bind_pure_comp, EStateM.run_bind, run, notFinish, colored, pictureOf, geometry]
    rfl
  · by_cases finish : type = TypeOfTile.finish.rawValue
    · subst finish
      simp [setColor, -bind_pure_comp, EStateM.run_bind, run, start, colored, pictureOf, geometry]
    · simp only [setColor, colored, pictureOf, start, finish, if_false, false_or]
      split_ifs <;> simp [run, geometry]

theorem run_spawnTile {l : DataLevel} {s : GameScene} {tile : SCNNode} {material : String} {others : List String}
    (provided : s.tile = some tile) (geometry : tile.geometry = some (material :: others)) {index : Nat}
    {t : DataTile} (found : l.tiles[index]? = some t) (position : SCNVector3) :
    (spawnTile l (some position) index).run s = .ok () (s.withTile tile position index t.type) := by
  have read : at? l.tiles (index : Int) = some t := by rw [at?_natCast, found]
  have color := run_setColor (show (copied tile position index).geometry = some (material :: others) from geometry)
    t.type s
  simp only [copied] at color
  simp only [spawnTile, EStateM.run_bind, EStateM.run_get, provided, run_unwrap_some, run_subscript_of_some read,
    color, EStateM.run_modify]
  simp only [withTile, copied, provided]

theorem run_stepsTo {n : Int} (positive : 1 ≤ n) (s : GameScene) : (stepsTo n).run s = .ok n.toNat s := by
  simp [stepsTo, show ¬ n < 1 by omega]

def cellPosition (first : SCNVector3) (c : Cell) : SCNVector3 :=
  ⟨first.x + c.column * TILE_SIZE, first.y, first.z + c.row * TILE_SIZE⟩

theorem cellPosition_next (first : SCNVector3) (row column : Int) :
    { cellPosition first ⟨row, column⟩ with x := (cellPosition first ⟨row, column⟩).x + TILE_SIZE } =
      cellPosition first ⟨row, column + 1⟩ := by
  simp only [cellPosition, SCNVector3.mk.injEq, and_true]
  push_cast
  ring

theorem cellPosition_nextRow (first : SCNVector3) (row column : Int) :
    { cellPosition first ⟨row, column⟩ with
      x := (cellPosition first ⟨row, 0⟩).x, z := (cellPosition first ⟨row, column⟩).z + TILE_SIZE } =
      cellPosition first ⟨row + 1, 0⟩ := by
  simp only [cellPosition, SCNVector3.mk.injEq, true_and]
  push_cast
  ring

structure Loaded (s : GameScene) : Prop where
  tile : ∃ tile material others, s.tile = some tile ∧ tile.geometry = some (material :: others)
  customRoot : ∃ node, s.customRoot = some node
  playerRoot : ∃ node, s.playerRoot = some node
  planeAnchor : ∃ extent, s.planeAnchor = some extent

def typeAt (l : DataLevel) (k : Nat) : Int := ((l.tiles[k]?).map (·.type)).getD 0

def laid (s : GameScene) (l : DataLevel) (tile : SCNNode) (first : SCNVector3) : Nat → GameScene
  | 0 => s
  | k + 1 => (laid s l tile first k).withTile tile (cellPosition first (Cell.ofNumber l.width k)) k (typeAt l k)

section Loops

variable {s : GameScene} {l : DataLevel} {tile : SCNNode} {first : SCNVector3}

theorem laid_tile (provided : s.tile = some tile) (k : Nat) : (laid s l tile first k).tile = some tile := by
  induction k with
  | zero => exact provided
  | succ k ih => exact ih

theorem laid_tiles (k : Nat) : (laid s l tile first k).tiles = s.tiles ++ (List.range k).map fun (i : Nat) =>
    colored (copied tile (cellPosition first (Cell.ofNumber l.width i)) i) (typeAt l i) := by
  induction k with
  | zero => simp [laid]
  | succ k ih => simp [laid, withTile, ih, List.range_succ]

theorem laid_rooted (tile : SCNNode) (first : SCNVector3) {node : SCNNode} (root : s.playerRoot = some node) (k : Nat) :
    ∃ node', (laid s l tile first k).playerRoot = some node' := by
  induction k with
  | zero => exact ⟨node, root⟩
  | succ k ih =>
    obtain ⟨node', found⟩ := ih
    simp only [laid, withTile, found]
    split <;> exact ⟨_, rfl⟩

theorem laid_playerRoot (tile : SCNNode) (first : SCNVector3) {i : Nat}
    (start : typeAt l i = TypeOfTile.start.rawValue) {k : Nat} (before : i < k)
    (last : ∀ j, i < j → j < k → typeAt l j ≠ TypeOfTile.start.rawValue) {node : SCNNode}
    (root : s.playerRoot = some node) : ∃ node', (laid s l tile first k).playerRoot =
      some (moved node' (cellPosition first (Cell.ofNumber l.width i))) := by
  induction k with
  | zero => omega
  | succ k ih =>
    by_cases here : k = i
    · subst here
      obtain ⟨node', found⟩ := laid_rooted (l := l) tile first root k
      exact ⟨node', by simp [laid, withTile, start, found]⟩
    · obtain ⟨node', found⟩ := ih (by omega) fun j after bound => last j after (by omega)
      exact ⟨node', by simp [laid, withTile, last k (by omega) (by omega), found]⟩

variable {material : String} {others : List String} (playable : l.Playable) (provided : s.tile = some tile)
  (geometry : tile.geometry = some (material :: others))

include playable provided geometry

theorem run_spawnTile_laid (first : SCNVector3) {row column : Nat} (inRow : (row : Int) < l.height)
    (inColumn : (column : Int) < l.width)
    {k : Nat} (number : (k : Int) = row * l.width + column) :
    (spawnTile l (some (cellPosition first ⟨row, column⟩)) k).run (laid s l tile first k) =
      .ok () (laid s l tile first (k + 1)) := by
  have inside : (⟨row, column⟩ : Cell).Inside l.width l.height :=
    ⟨Int.natCast_nonneg row, inRow, Int.natCast_nonneg column, inColumn⟩
  have cell : Cell.ofNumber l.width k = ⟨row, column⟩ := by
    rw [number]
    exact inside.ofNumber_number
  have bound := inside.number_bounds.2
  simp only [Cell.number, ← number, ← playable.count] at bound
  have found : l.tiles[k]? = some l.tiles[k] := List.getElem?_eq_getElem (by omega)
  rw [run_spawnTile (laid_tile provided k) geometry found]
  simp only [laid, cell, typeAt, found, Option.map_some, Option.getD_some]

theorem run_spawnRow (first : SCNVector3) {row : Nat} (inRow : (row : Int) < l.height) (column columns : Nat)
    (inColumns : (column + columns : Int) ≤ l.width) {k : Nat} (number : (k : Int) = row * l.width + column) :
    (spawnRow l columns (some (cellPosition first ⟨row, column⟩)) k).run (laid s l tile first k) =
      .ok (some (cellPosition first ⟨row, (column + columns : Nat)⟩), k + columns)
        (laid s l tile first (k + columns)) := by
  induction columns generalizing column k with
  | zero => rfl
  | succ columns ih =>
    have step := run_spawnTile_laid playable provided geometry first inRow
      (show (column : Int) < l.width by omega) number
    have next := cellPosition_next first row column
    have number' : ((k + 1 : Nat) : Int) = row * l.width + (column + 1 : Nat) := by push_cast; omega
    have rest := ih (column + 1) (by push_cast at inColumns ⊢; omega) number'
    have columnSum : column + (columns + 1) = column + 1 + columns := by omega
    have numberSum : k + (columns + 1) = k + 1 + columns := by omega
    simp only [spawnRow, EStateM.run_bind, step, Option.map_some, next, columnSum, numberSum]
    exact rest

theorem run_spawnRows (first : SCNVector3) (row rows : Nat) (inRows : (row + rows : Int) = l.height) {k : Nat}
    (number : (k : Int) = row * l.width) :
    (spawnRows l (some first) rows (some (cellPosition first ⟨row, 0⟩)) k).run (laid s l tile first k) =
      .ok () (laid s l tile first (k + rows * l.width.toNat)) := by
  induction rows generalizing row k with
  | zero => simp [spawnRows]
  | succ rows ih =>
    have width := playable.width_pos
    have inRow : (row : Int) < l.height := by push_cast at inRows; omega
    have ranRow := run_spawnRow playable provided geometry first inRow 0 l.width.toNat (by push_cast; omega)
      (show (k : Int) = row * l.width + (0 : Nat) by push_cast; omega)
    have number' : ((k + l.width.toNat : Nat) : Int) = (row + 1 : Nat) * l.width := by
      push_cast
      rw [Int.toNat_of_nonneg (by omega), number]
      ring
    have rest := ih (row + 1) (by push_cast at inRows ⊢; omega) number'
    have next := cellPosition_nextRow first row l.width.toNat
    have home : (cellPosition first ⟨row, 0⟩).x = first.x := by simp [cellPosition]
    have numberSum : k + (rows + 1) * l.width.toNat = k + l.width.toNat + rows * l.width.toNat := by ring
    rw [home] at next
    simp only [Nat.cast_zero, Nat.zero_add] at ranRow
    simp only [spawnRows, EStateM.run_bind, run_stepsTo (show 1 ≤ l.width by omega), ranRow, run_unwrap_some,
      Option.map_some, next, numberSum]
    rw [Nat.cast_succ] at rest
    exact rest

end Loops

theorem showNodes_keeps (s : GameScene) :
    (final showNodes s).playerRoot = s.playerRoot ∧ (final showNodes s).tiles = s.tiles := by
  obtain ⟨customRoot, tile, player, playerRoot, finish, earth, moon, planeAnchor, tiles⟩ := s
  cases earth <;> cases playerRoot <;> cases moon <;> cases finish <;> cases player <;>
    simp [final, showNodes, -bind_pure_comp, EStateM.run_bind]

theorem run_spawnLevel {s : GameScene} {l : DataLevel} (loaded : s.Loaded) (playable : l.Playable) :
    ∃ root extent tile first, (spawnLevel l).run s = showNodes.run
      (laid { s with customRoot := some root, planeAnchor := some extent } l tile first l.tiles.length) := by
  obtain ⟨⟨tile, material, others, provided, geometry⟩, ⟨root, rooted⟩, _, extent, anchor⟩ := loaded
  have height := playable.height_pos
  have width := playable.width_pos
  let scale := min (extent.x * (97 / 100) / (TILE_SIZE * l.width)) (extent.z * (97 / 100) / (TILE_SIZE * l.height))
  let scaled : SCNNode := { root with scale := ⟨scale, scale, scale⟩ }
  let s' : GameScene := { s with customRoot := some scaled, planeAnchor := some extent }
  let first := firstPosition l root.position
  have home : cellPosition first ⟨(0 : Nat), 0⟩ = first := by simp [cellPosition]
  have total : 0 + l.height.toNat * l.width.toNat = l.tiles.length := by
    have product : ((l.height.toNat * l.width.toNat : Nat) : Int) = l.width * l.height := by
      push_cast
      rw [Int.toNat_of_nonneg (by omega), Int.toNat_of_nonneg (by omega), Int.mul_comm]
    have := playable.count
    omega
  have provided' : s'.tile = some tile := provided
  have rows := run_spawnRows playable provided' geometry first 0 l.height.toNat (by push_cast; omega)
    (show ((0 : Nat) : Int) = (0 : Nat) * l.width by simp)
  rw [home, total] at rows
  refine ⟨scaled, extent, tile, first, ?_⟩
  simp only [spawnLevel, EStateM.run_bind, EStateM.run_get, anchor, run_unwrap_some, EStateM.run_modify, rooted,
    Option.map_some, run_stepsTo (show 1 ≤ l.height by omega)]
  rw [show laid s' l tile first 0 = s' from rfl] at rows
  rw [rows]

theorem spawnLevel_lays {s : GameScene} {l : DataLevel} (loaded : s.Loaded) (playable : l.Playable) :
    ∃ s' tile first, s'.tiles = s.tiles ∧ (∃ node, s'.playerRoot = some node) ∧
      (final (spawnLevel l) s).tiles = (laid s' l tile first l.tiles.length).tiles ∧
      (final (spawnLevel l) s).playerRoot = (laid s' l tile first l.tiles.length).playerRoot := by
  obtain ⟨root, extent, tile, first, ran⟩ := run_spawnLevel loaded playable
  let s' : GameScene := { s with customRoot := some root, planeAnchor := some extent }
  have same : final (spawnLevel l) s = final showNodes (laid s' l tile first l.tiles.length) := by
    simp only [final, ran]
    rfl
  obtain ⟨keptRoot, keptTiles⟩ := showNodes_keeps (laid s' l tile first l.tiles.length)
  exact ⟨s', tile, first, rfl, loaded.playerRoot, by rw [same, keptTiles], by rw [same, keptRoot]⟩

end GameScene

end ArRobotCode
