import Mathlib.Tactic.Linarith
import Mathlib.Data.Nat.Find
import ArRobotCode.Game.EngineSafety
import ArRobotCode.Game.SceneTiles
import ArRobotCode.Levels.WellFormed

namespace ArRobotCode

open Swift GridWalk Trapping

namespace GameScene

def StartsAt (l : DataLevel) (i : Nat) : Prop := (l.tiles[i]?).map (·.type) = some TypeOfTile.start.rawValue

instance (l : DataLevel) (i : Nat) : Decidable (StartsAt l i) := inferInstanceAs (Decidable (_ = _))

theorem startsAt_iff_typeAt {l : DataLevel} {i : Nat} : StartsAt l i ↔ typeAt l i = TypeOfTile.start.rawValue := by
  unfold StartsAt typeAt
  cases (l.tiles[i]?).map (·.type) with
  | none => simp; decide
  | some type => simp

theorem StartsAt.bound {l : DataLevel} {i : Nat} (starts : StartsAt l i) : i < l.tiles.length := by
  by_contra outside
  simp [StartsAt, List.getElem?_eq_none (by omega : l.tiles.length ≤ i)] at starts

theorem exists_last_start {l : DataLevel} {i : Nat} (starts : StartsAt l i) :
    ∃ j, StartsAt l j ∧ ∀ k, j < k → ¬ StartsAt l k := by
  refine ⟨Nat.findGreatest (StartsAt l) l.tiles.length, ?_, fun k after later => ?_⟩
  · exact Nat.findGreatest_spec (Nat.le_of_lt starts.bound) starts
  · exact Nat.findGreatest_is_greatest after (Nat.le_of_lt later.bound) later

theorem exists_first_start {l : DataLevel} (hasStart : ∃ t ∈ l.tiles, t.type = TypeOfTile.start.rawValue) :
    ∃ i, l.tiles.findIdx? (·.type = TypeOfTile.start.rawValue) = some i ∧ StartsAt l i ∧ ∀ k < i, ¬ StartsAt l k := by
  cases found : l.tiles.findIdx? (·.type = TypeOfTile.start.rawValue) with
  | none =>
    obtain ⟨t, member, start⟩ := hasStart
    have notStart := List.findIdx?_eq_none_iff.mp found t member
    simp [start] at notStart
  | some i =>
    obtain ⟨bound, isStart, earlier⟩ := List.findIdx?_eq_some_iff_getElem.mp found
    refine ⟨i, rfl, by simpa [StartsAt, bound] using isStart, fun k before starts => ?_⟩
    have notStart := earlier k before
    simp [StartsAt, List.getElem?_eq_getElem starts.bound] at starts
    simp [starts] at notStart

/-- The engine's start position is the cell of the tile that `playerRoot` is placed on. -/
def SameStart (l : DataLevel) (scene : GameScene) : Prop :=
  ∃ e firstTile root, EngineAR.init l [] = .ok e ∧
    (final (spawnLevel l) scene).tiles[scene.tiles.length]? = some firstTile ∧
    (final (spawnLevel l) scene).playerRoot = some root ∧
    root.position.x - firstTile.position.x = e.startPosition.y * TILE_SIZE ∧
    root.position.z - firstTile.position.z = e.startPosition.x * TILE_SIZE

@[simp] theorem colored_position (newTile : SCNNode) (type : Int) :
    (colored newTile type).position = newTile.position := by
  unfold colored
  split <;> rfl

theorem offset_eq_iff (start : ℚ) (a b : Int) : start + a * TILE_SIZE - start = b * TILE_SIZE ↔ a = b := by
  constructor
  · intro same
    have scaled : (a : ℚ) * TILE_SIZE = b * TILE_SIZE := by linarith
    have size : TILE_SIZE ≠ 0 := by decide
    exact_mod_cast mul_right_cancel₀ size scaled
  · intro same
    subst same
    ring

theorem spawnLevel_playerRoot {s : GameScene} {l : DataLevel} (loaded : s.Loaded) (playable : l.Playable) {j : Nat}
    (starts : StartsAt l j) (last : ∀ k, j < k → ¬ StartsAt l k) :
    ∃ firstTile root, (final (spawnLevel l) s).tiles[s.tiles.length]? = some firstTile ∧
      (final (spawnLevel l) s).playerRoot = some root ∧
      root.position.x = firstTile.position.x + (Cell.ofNumber l.width j).column * TILE_SIZE ∧
      root.position.z = firstTile.position.z + (Cell.ofNumber l.width j).row * TILE_SIZE := by
  obtain ⟨s', tile, first, sameTiles, ⟨node, rooted⟩, tiles, playerRoot⟩ := spawnLevel_lays loaded playable
  obtain ⟨node', root⟩ := laid_playerRoot tile first (startsAt_iff_typeAt.mp starts) starts.bound
    (fun k after _ => mt startsAt_iff_typeAt.mpr (last k after)) rooted
  have nonempty := starts.bound
  have corner : Cell.ofNumber l.width (0 : Nat) = ⟨0, 0⟩ := by simp [Cell.ofNumber]
  have head : (final (spawnLevel l) s).tiles[s.tiles.length]? =
      some (colored (copied tile (cellPosition first ⟨0, 0⟩) 0) (typeAt l 0)) := by
    rw [tiles, laid_tiles, sameTiles, List.getElem?_append_right (Nat.le_refl _), Nat.sub_self, List.getElem?_map,
      List.getElem?_range (by omega), Option.map_some, corner]
  refine ⟨_, _, head, playerRoot.trans root, ?_, ?_⟩
  · simp [moved, copied, cellPosition]
  · simp [moved, copied, cellPosition]

theorem first_start_is_last_iff {l : DataLevel} {i j : Nat} (starts : StartsAt l i) (before : ∀ k < i, ¬ StartsAt l k)
    (startsLast : StartsAt l j) (last : ∀ k, j < k → ¬ StartsAt l k) : j = i ↔ ∃! i, StartsAt l i := by
  constructor
  · intro same
    subst same
    refine ⟨j, starts, fun k startsK => ?_⟩
    rcases Nat.lt_trichotomy k j with less | equal | greater
    · exact absurd startsK (before k less)
    · exact equal
    · exact absurd startsK (last k greater)
  · intro unique
    exact unique.unique startsLast starts

theorem sameStart_iff {s : GameScene} {l : DataLevel} (loaded : s.Loaded) (playable : l.Playable)
    (hasStart : ∃ t ∈ l.tiles, t.type = TypeOfTile.start.rawValue) : SameStart l s ↔ ∃! i, StartsAt l i := by
  obtain ⟨i, found, starts, before⟩ := exists_first_start hasStart
  obtain ⟨j, startsLast, last⟩ := exists_last_start starts
  obtain ⟨firstTile, root, tiles, playerRoot, x, z⟩ := spawnLevel_playerRoot loaded playable startsLast last
  have built := EngineAR.init_of_findIdx playable found []
  have same : SameStart l s ↔ j = i := by
    constructor
    · intro given
      rcases given with ⟨e, firstTile', root', init, tiles', playerRoot', sameX, sameZ⟩
      cases init.symm.trans built
      cases tiles'.symm.trans tiles
      cases playerRoot'.symm.trans playerRoot
      rw [x, offset_eq_iff] at sameX
      rw [z, offset_eq_iff] at sameZ
      have cell : Cell.ofNumber l.width j = Cell.ofNumber l.width i := Cell.ext sameZ sameX
      have number := congrArg (Cell.number l.width) cell
      rw [Cell.number_ofNumber (Int.natCast_nonneg j), Cell.number_ofNumber (Int.natCast_nonneg i)] at number
      omega
    · intro same
      subst same
      refine ⟨_, firstTile, root, built, tiles, playerRoot, ?_, ?_⟩
      · rw [x, offset_eq_iff]
        rfl
      · rw [z, offset_eq_iff]
        rfl
  rw [same]
  exact first_start_is_last_iff starts before startsLast last

end GameScene

theorem DataLevel.WellFormed.playable {l : DataLevel} (formed : l.WellFormed) (nonempty : l.tiles ≠ []) :
    l.Playable := by
  have positive : 0 < (l.tiles.length : Int) := by
    have := List.length_pos_iff.mpr nonempty
    omega
  have product := formed.count
  refine ⟨?_, ?_, formed.count, formed.fits⟩
  · rcases Int.lt_or_eq_of_le formed.width with less | equal
    · exact less
    · rw [← equal, Int.zero_mul] at product
      omega
  · rcases Int.lt_or_eq_of_le formed.height with less | equal
    · exact less
    · rw [← equal, Int.mul_zero] at product
      omega

namespace GameScene

/-- Of the levels an editor makes, the engine and the scene agree on the start exactly of those with one Start tile. -/
theorem edited_level_same_start_iff [CanonicalForm] {s : GameScene} (loaded : s.Loaded) {l : DataLevel}
    {edits : List Edit} (edited : l.Edited edits) (hasStart : ∃ t ∈ l.tiles, t.type = TypeOfTile.start.rawValue) :
    SameStart l s ↔ ∃! i, StartsAt l i := by
  have nonempty : l.tiles ≠ [] := by
    obtain ⟨t, member, _⟩ := hasStart
    exact List.ne_nil_of_mem member
  exact sameStart_iff loaded (edited.wellFormed.playable nonempty) hasStart

def plainScene : GameScene :=
  { customRoot := some {}, tile := some { geometry := some ["grey"] }, player := some {}, playerRoot := some {},
    earth := some {}, moon := some {}, planeAnchor := some ⟨1, 0, 1⟩ }

theorem plainScene_loaded : plainScene.Loaded :=
  ⟨⟨_, _, _, rfl, rfl⟩, ⟨_, rfl⟩, ⟨_, rfl⟩, ⟨_, rfl⟩⟩

def freeTiles (n : Nat) : List DataTile := List.replicate n {}

def editedLevel (tiles : List DataTile) : DataLevel := { DataLevel.new5x5 "level" "" "me" with tiles := tiles }

theorem edited_of_run [CanonicalForm] {edits : List Edit} {l : DataLevel} {v' : LevelViewModel}
    (valid : ∀ e ∈ edits, e.Valid) (ran : (runAll Edit.perform edits).run
      ⟨{ entities := [DataLevel.new5x5 "level" "" "me"] }, 0, DataLevel.new5x5 "level" "" "me"⟩ = .ok () v')
    (last : at? v'.levelsRepository.entities 0 = some l) : l.Edited edits :=
  ⟨valid, { entities := [DataLevel.new5x5 "level" "" "me"] }, 0, "level", "", "me", _, v', rfl, rfl, ran, last⟩

local instance startTexts : CanonicalForm := .composed

theorem edited_level_same_start_one :
    SameStart (editedLevel ((freeTiles 25).set 7 ⟨TypeOfTile.start.rawValue⟩)) plainScene := by
  have edited : (editedLevel ((freeTiles 25).set 7 ⟨TypeOfTile.start.rawValue⟩)).Edited [.setToStartTile 7] :=
    edited_of_run (by simp [Edit.Valid]) rfl rfl
  refine (edited_level_same_start_iff plainScene_loaded edited ⟨⟨TypeOfTile.start.rawValue⟩, by decide, rfl⟩).mpr
    ⟨7, by decide, fun k starts => ?_⟩
  have only : ∀ k < 25, StartsAt (editedLevel ((freeTiles 25).set 7 ⟨TypeOfTile.start.rawValue⟩)) k → k = 7 := by
    decide
  exact only k starts.bound starts

/-- Two tiles are made Start tiles: the engine starts on the first one, the scene on the second one. -/
theorem edited_level_two_starts :
    (editedLevel (⟨2⟩ :: ⟨2⟩ :: freeTiles 23)).Edited
        [.setToStartTile 0, .setToStartTile 1] ∧
      ¬ SameStart (editedLevel (⟨2⟩ :: ⟨2⟩ :: freeTiles 23)) plainScene := by
  have edited : (editedLevel (⟨2⟩ :: ⟨2⟩ :: freeTiles 23)).Edited
      [.setToStartTile 0, .setToStartTile 1] := edited_of_run (by simp [Edit.Valid]) rfl rfl
  refine ⟨edited, fun same => ?_⟩
  have playable := edited.wellFormed.playable (by decide)
  have unique := (sameStart_iff plainScene_loaded playable ⟨⟨2⟩, by decide, rfl⟩).mp same
  have equal := unique.unique (show StartsAt _ 0 by decide) (show StartsAt _ 1 by decide)
  exact absurd equal (by decide)

end GameScene

end ArRobotCode
