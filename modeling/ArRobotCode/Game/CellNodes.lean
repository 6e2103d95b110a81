import Mathlib.Data.List.Nodup
import ArRobotCode.Game.StartTile

namespace ArRobotCode

open Swift GridWalk Trapping

namespace GameScene

/-- The node stands for the engine's cell: it has the number of the cell's tile, from which the engine gets the cell
    back, it lies as far from the first node as the cell from the corner, and it is hidden where the tile is not
    shown. -/
structure StandsFor (l : DataLevel) (firstNode node : SCNNode) (c : Cell) (k : Nat) : Prop where
  toVector : ∀ e : EngineAR, e.level = l → (EngineAR.matrixCoordinatesToVector c.row c.column).run e = .ok k e
  toMatrix : EngineAR.vectorCoordinatesToMatrix l k = .ok ⟨c.row, c.column⟩
  index : node.index = some k
  x : node.position.x = firstNode.position.x + c.column * TILE_SIZE
  y : node.position.y = firstNode.position.y
  z : node.position.z = firstNode.position.z + c.row * TILE_SIZE
  hidden : ∃ t, l.tiles[k]? = some t ∧ (node.isHidden = true ↔
    t.type = TypeOfTile.free.rawValue ∨ ∀ type : TypeOfTile, t.type ≠ type.rawValue)

structure LaidOut (l : DataLevel) (nodes : List SCNNode) : Prop where
  indices : nodes.map (·.index) = (List.range l.tiles.length).map some
  distinct : (nodes.map (·.position)).Nodup
  cells : ∃ firstNode, nodes[0]? = some firstNode ∧ ∀ c : Cell, c.Inside l.width l.height →
    ∃ k node, nodes[k]? = some node ∧ StandsFor l firstNode node c k

theorem pictureOf_eq_none_iff {type : Int} : pictureOf type = none ↔
    type = TypeOfTile.free.rawValue ∨ ∀ known : TypeOfTile, type ≠ known.rawValue := by
  constructor
  · intro none
    by_cases free : type = TypeOfTile.free.rawValue
    · exact .inl free
    · refine .inr fun known same => ?_
      subst same
      cases known with
      | free => exact free rfl
      | _ => exact absurd none (by decide)
  · intro unknown
    rcases unknown with free | other
    · rw [free]
      rfl
    · simp only [pictureOf, other, or_self, if_false]

theorem colored_isHidden (newTile : SCNNode) (shown : newTile.isHidden = false) (type : Int) :
    (colored newTile type).isHidden = true ↔ pictureOf type = none := by
  unfold colored
  split
  · rename_i picture pictured
    simp [shown, pictured]
  · rename_i none
    simp [none]

@[simp] theorem colored_index (newTile : SCNNode) (type : Int) : (colored newTile type).index = newTile.index := by
  unfold colored
  split <;> rfl

theorem cellPosition_injective {first : SCNVector3} {c d : Cell} (same : cellPosition first c = cellPosition first d) :
    c = d := by
  simp only [cellPosition, SCNVector3.mk.injEq, true_and] at same
  obtain ⟨x, z⟩ := same
  apply Cell.ext
  · rw [← offset_eq_iff first.z, z]
    ring
  · rw [← offset_eq_iff first.x, x]
    ring

def nodeOf (l : DataLevel) (tile : SCNNode) (first : SCNVector3) (i : Nat) : SCNNode :=
  colored (copied tile (cellPosition first (Cell.ofNumber l.width i)) i) (typeAt l i)

variable {l : DataLevel} {tile : SCNNode} {first : SCNVector3}

theorem nodeOf_positions_nodup (n : Nat) : ((List.range n).map fun i => (nodeOf l tile first i).position).Nodup := by
  apply List.Nodup.map _ List.nodup_range
  intro i j same
  simp only [nodeOf, colored_position, copied] at same
  have number := congrArg (Cell.number l.width) (cellPosition_injective same)
  rw [Cell.number_ofNumber (Int.natCast_nonneg i), Cell.number_ofNumber (Int.natCast_nonneg j)] at number
  omega

theorem nodeOf_standsFor (playable : l.Playable) {c : Cell} (inside : c.Inside l.width l.height) {k : Nat}
    (number : (k : Int) = c.number l.width) :
    StandsFor l (nodeOf l tile first 0) (nodeOf l tile first k) c k := by
  have cell : Cell.ofNumber l.width k = c := by rw [number, inside.ofNumber_number]
  have corner : Cell.ofNumber l.width 0 = ⟨0, 0⟩ := by simp [Cell.ofNumber]
  have width := playable.width_pos
  have bound := inside.number_bounds.2
  have count := playable.count
  have found : l.tiles[k]? = some l.tiles[k] := List.getElem?_eq_getElem (by omega)
  refine ⟨?_, ?_, by simp [nodeOf, copied], ?_, ?_, ?_, l.tiles[k], found, ?_⟩
  · intro e same
    subst same
    rw [number]
    exact EngineAR.run_matrixCoordinatesToVector playable inside
  · simp only [EngineAR.vectorCoordinatesToMatrix, if_neg (show l.width ≠ 0 by omega), ← cell, Cell.ofNumber]
    rfl
  · simp [nodeOf, copied, cell, corner, cellPosition]
  · simp [nodeOf, copied, cellPosition]
  · simp [nodeOf, copied, cell, corner, cellPosition]
  · have type : typeAt l k = l.tiles[k].type := by simp [typeAt, found]
    rw [nodeOf, colored_isHidden _ rfl, pictureOf_eq_none_iff, type]

/-- Whatever the level's sides, the nodes that a scene gets for it are laid out as the engine numbers the cells. -/
theorem spawnLevel_lays_cells {s : GameScene} (loaded : s.Loaded) (playable : l.Playable) :
    ∃ nodes, (final (spawnLevel l) s).tiles = s.tiles ++ nodes ∧ LaidOut l nodes := by
  obtain ⟨s', tile, first, same, _, tiles, _⟩ := spawnLevel_lays loaded playable
  rw [laid_tiles, same] at tiles
  have width := playable.width_pos
  have height := playable.height_pos
  have corner : (⟨0, 0⟩ : Cell).Inside l.width l.height := ⟨Int.le_refl 0, height, Int.le_refl 0, width⟩
  have numbered (c : Cell) (inside : c.Inside l.width l.height) :
      ((List.range l.tiles.length).map (nodeOf l tile first))[(c.number l.width).toNat]? =
        some (nodeOf l tile first (c.number l.width).toNat) := by
    have bounds := inside.number_bounds
    have count := playable.count
    rw [List.getElem?_map, List.getElem?_range (by omega), Option.map_some]
  refine ⟨_, tiles, ⟨?_, ?_, nodeOf l tile first 0, ?_, fun c inside => ?_⟩⟩
  · simp [copied]
  · rw [List.map_map]
    exact nodeOf_positions_nodup l.tiles.length
  · have number : Cell.number l.width ⟨0, 0⟩ = 0 := by simp [Cell.number]
    have found := numbered ⟨0, 0⟩ corner
    rw [number] at found
    exact found
  · have nonneg := inside.number_bounds.1
    exact ⟨_, _, numbered c inside, nodeOf_standsFor playable inside (by omega)⟩

theorem spawnLevel_lays_cells_short : ∃ nodes,
    (final (spawnLevel EngineAR.shortLevel) plainScene).tiles = plainScene.tiles ++ nodes ∧
      LaidOut EngineAR.shortLevel nodes :=
  spawnLevel_lays_cells plainScene_loaded EngineAR.shortLevel_playable

end GameScene

end ArRobotCode
