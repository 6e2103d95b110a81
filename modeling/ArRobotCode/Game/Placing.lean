import ArRobotCode.Game.StartTile

namespace ArRobotCode

open Swift GridWalk Trapping

namespace GameScene

/-- What a new scene has when a plane has been chosen: every node of the scene file, and no finish. -/
structure Fresh (s : GameScene) : Prop where
  loaded : s.Loaded
  earth : ∃ node, s.earth = some node
  moon : ∃ node, s.moon = some node
  player : ∃ node, s.player = some node
  finish : s.finish = none

section Laid

variable {s : GameScene} {l : DataLevel} (tile : SCNNode) (first : SCNVector3)

theorem laid_keeps (k : Nat) : (laid s l tile first k).earth = s.earth ∧ (laid s l tile first k).moon = s.moon ∧
    (laid s l tile first k).player = s.player := by
  induction k with
  | zero => exact ⟨rfl, rfl, rfl⟩
  | succ k ih => exact ih

theorem laid_finish (fresh : s.finish = none) (k : Nat) :
    (laid s l tile first k).finish.isSome ↔ ∃ i < k, typeAt l i = TypeOfTile.finish.rawValue := by
  induction k with
  | zero => simp [laid, fresh]
  | succ k ih =>
    simp only [laid, withTile]
    split
    · rename_i here
      simp only [Option.isSome_some, true_iff]
      exact ⟨k, Nat.lt_succ_self k, here⟩
    · rename_i other
      rw [ih]
      constructor
      · intro met
        obtain ⟨i, before, finish⟩ := met
        exact ⟨i, by omega, finish⟩
      · intro met
        obtain ⟨i, before, finish⟩ := met
        have differs : i ≠ k := fun same => other (same ▸ finish)
        exact ⟨i, by omega, finish⟩

end Laid

theorem showNodes_runs_iff {s : GameScene} (earth : ∃ node, s.earth = some node) (moon : ∃ node, s.moon = some node)
    (player : ∃ node, s.player = some node) (playerRoot : ∃ node, s.playerRoot = some node) :
    (∃ s', showNodes.run s = .ok () s') ↔ s.finish.isSome := by
  obtain ⟨customRoot, tile, playerNode, rootNode, finish, earthNode, moonNode, planeAnchor, tiles⟩ := s
  obtain ⟨earth, rfl⟩ := earth
  obtain ⟨moon, rfl⟩ := moon
  obtain ⟨player, rfl⟩ := player
  obtain ⟨root, rfl⟩ := playerRoot
  cases finish with
  | none => simp [showNodes, -bind_pure_comp, EStateM.run_bind]
  | some finish => simp [showNodes, -bind_pure_comp, EStateM.run_bind]

theorem typeAt_finish_iff {l : DataLevel} :
    (∃ i < l.tiles.length, typeAt l i = TypeOfTile.finish.rawValue) ↔
      ∃ t ∈ l.tiles, t.type = TypeOfTile.finish.rawValue := by
  constructor
  · intro met
    obtain ⟨i, bound, finish⟩ := met
    refine ⟨l.tiles[i], List.getElem_mem bound, ?_⟩
    simpa [typeAt, List.getElem?_eq_getElem bound] using finish
  · intro met
    obtain ⟨t, member, finish⟩ := met
    obtain ⟨i, bound, rfl⟩ := List.mem_iff_getElem.mp member
    exact ⟨i, bound, by simpa [typeAt, List.getElem?_eq_getElem bound] using finish⟩

theorem spawnLevel_runs_iff {s : GameScene} (fresh : s.Fresh) {l : DataLevel} (playable : l.Playable) :
    (∃ s', (spawnLevel l).run s = .ok () s') ↔ ∃ t ∈ l.tiles, t.type = TypeOfTile.finish.rawValue := by
  obtain ⟨root, extent, tile, first, ran⟩ := run_spawnLevel fresh.loaded playable
  obtain ⟨node, rooted⟩ := fresh.loaded.playerRoot
  let s' : GameScene := { s with customRoot := some root, planeAnchor := some extent }
  obtain ⟨earth, moon, player⟩ := laid_keeps (s := s') (l := l) tile first l.tiles.length
  have rooted' := laid_rooted (s := s') (l := l) tile first rooted l.tiles.length
  have finish := laid_finish (s := s') (l := l) tile first fresh.finish l.tiles.length
  rw [ran, ← typeAt_finish_iff, ← finish]
  apply showNodes_runs_iff _ _ _ rooted'
  · rw [earth]
    exact fresh.earth
  · rw [moon]
    exact fresh.moon
  · rw [player]
    exact fresh.player

/-- A level that an editor has made is placed without a trap exactly when one of its tiles is a Finish tile. -/
theorem edited_level_places_iff [CanonicalForm] {s : GameScene} (fresh : s.Fresh) {l : DataLevel} {edits : List Edit}
    (edited : l.Edited edits) (nonempty : l.tiles ≠ []) :
    (∃ s', (spawnLevel l).run s = .ok () s') ↔ ∃ t ∈ l.tiles, t.type = TypeOfTile.finish.rawValue :=
  spawnLevel_runs_iff fresh (edited.wellFormed.playable nonempty)

theorem plainScene_fresh : plainScene.Fresh := ⟨plainScene_loaded, ⟨_, rfl⟩, ⟨_, rfl⟩, ⟨_, rfl⟩, rfl⟩

local instance placedTexts : CanonicalForm := .composed

theorem edited_level_places_finish :
    ∃ s', (spawnLevel (editedLevel (⟨TypeOfTile.finish.rawValue⟩ :: freeTiles 24))).run plainScene = .ok () s' := by
  have edited : (editedLevel (⟨TypeOfTile.finish.rawValue⟩ :: freeTiles 24)).Edited [.setToStartTile 0, .swapTile 0] :=
    edited_of_run (by simp [Edit.Valid]) rfl rfl
  exact (edited_level_places_iff plainScene_fresh edited (by decide)).mpr ⟨⟨TypeOfTile.finish.rawValue⟩, by decide, rfl⟩

/-- A new level is put on a plane before any tile has been edited. -/
theorem new_level_traps_when_placed :
    plainScene.Fresh ∧ (editedLevel (freeTiles 25)).Edited [] ∧ (editedLevel (freeTiles 25)).tiles ≠ [] ∧
      ¬ ∃ s', (spawnLevel (editedLevel (freeTiles 25))).run plainScene = .ok () s' := by
  have edited : (editedLevel (freeTiles 25)).Edited [] := edited_of_run (by simp) rfl rfl
  refine ⟨plainScene_fresh, edited, by decide, fun placed => ?_⟩
  have playable := edited.wellFormed.playable (by decide)
  obtain ⟨t, member, finish⟩ := (spawnLevel_runs_iff plainScene_fresh playable).mp placed
  rw [List.eq_of_mem_replicate member] at finish
  exact absurd finish (by decide)

end GameScene

end ArRobotCode
