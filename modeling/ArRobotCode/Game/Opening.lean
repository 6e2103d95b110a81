import ArRobotCode.Game.StartTile
import ArRobotCode.Levels.LevelsList

namespace ArRobotCode

open Swift GridWalk Trapping

/-- What a game needs of its level: tiles, positive sides, and its first Start tile within the grid they span. -/
structure DataLevel.Opens (l : DataLevel) : Prop where
  tiles : l.tiles ≠ []
  width : 0 < l.width
  height : 0 < l.height
  start : ∀ i ∈ l.tiles.findIdx? (·.type = TypeOfTile.start.rawValue), (i : Int) < l.width * l.height

/-- The part of `viewDidLoad` that builds the engine. -/
def GameUISplitViewController.engineAR (crtLevelAt : Int) (player : List PlayerCommand) :
    Method LevelsRepository EngineAR := do
  let _arVCLevel ← LevelsRepository.getLevel crtLevelAt
  let level ← LevelsRepository.getLevel crtLevelAt
  match EngineAR.init level player with
  | .ok engine => return engine
  | .error trap => throw trap

/-- When the app starts, nothing has been downloaded and nothing selected. -/
structure LevelsSplitViewController where
  levelsRepository : LevelsRepository := {}
  at' : Int := 0

def LevelsSplitViewController.navigateToGameInterface (player : List PlayerCommand) :
    Method LevelsSplitViewController EngineAR := do
  within (·.levelsRepository) (fun r split => { split with levelsRepository := r })
    (GameUISplitViewController.engineAR (← get).at' player)

def PublicLevelsViewController.navigateToGameInterface (toLevel : DataLevel) (player : List PlayerCommand) :
    Method LevelsRepository EngineAR := do
  GameUISplitViewController.engineAR (← LevelsRepository.getAt toLevel.uuid) player

def OpensSafely {σ : Type} (opening : Method σ EngineAR) (s : σ) : Prop :=
  ∃ engine s', opening.run s = .ok engine s' ∧
    (engine.level.tiles ≠ [] → engine.startPosition.cell.Inside engine.level.width engine.level.height)

namespace EngineAR

variable {l : DataLevel} {engine : EngineAR} (player : List PlayerCommand)

theorem init_ok_iff : init l player = .ok engine ↔ l.tiles ≠ [] ∧
    ((l.tiles.findIdx? (·.type = TypeOfTile.start.rawValue) = none ∧
        engine = { level := l, playerController := player }) ∨
      ∃ i : Nat, l.tiles.findIdx? (·.type = TypeOfTile.start.rawValue) = some i ∧ l.width ≠ 0 ∧
        engine = started l player (Cell.ofNumber l.width i)) := by
  by_cases empty : l.tiles = []
  · simp [init, empty, throw, throwThe, MonadExceptOf.throw, Bind.bind, Except.bind]
  · have nonempty : ¬ l.tiles.length = 0 := fun length => empty (List.length_eq_zero_iff.mp length)
    cases found : l.tiles.findIdx? (·.type = TypeOfTile.start.rawValue) with
    | none => simp [init, nonempty, empty, found, pure, Except.pure, eq_comm]
    | some i =>
      by_cases narrow : l.width = 0
      · simp [init, nonempty, empty, found, vectorCoordinatesToMatrix, narrow, throw, throwThe, MonadExceptOf.throw,
          Bind.bind, Except.bind]
      · simp [init, nonempty, empty, found, vectorCoordinatesToMatrix, narrow, started, Cell.ofNumber, Bind.bind,
          Except.bind, pure, Except.pure, eq_comm]

theorem init_safe_iff : (∃ engine, init l player = .ok engine ∧
    (engine.level.tiles ≠ [] → engine.startPosition.cell.Inside engine.level.width engine.level.height)) ↔
    l.Opens := by
  constructor
  · intro safe
    obtain ⟨engine, built, inside⟩ := safe
    obtain ⟨nonempty, outcome⟩ := (init_ok_iff player).mp built
    rcases outcome with ⟨missing, rfl⟩ | ⟨i, found, _, rfl⟩
    · obtain ⟨_, height, _, width⟩ := inside nonempty
      exact ⟨nonempty, width, height, by simp [missing]⟩
    · have within := inside nonempty
      have number := within.number_bounds.2
      obtain ⟨row, height, column, width⟩ := within
      simp only [started] at row height column width number
      refine ⟨nonempty, by omega, by omega, fun j member => ?_⟩
      cases found.symm.trans member
      have same : (Cell.ofNumber l.width i).number l.width = i := Cell.number_ofNumber (Int.natCast_nonneg i)
      rw [← same]
      exact number
  · intro opens
    cases found : l.tiles.findIdx? (·.type = TypeOfTile.start.rawValue) with
    | none =>
      refine ⟨_, (init_ok_iff player).mpr ⟨opens.tiles, .inl ⟨found, rfl⟩⟩, fun _ => ?_⟩
      exact ⟨Int.le_refl 0, opens.height, Int.le_refl 0, opens.width⟩
    | some i =>
      have width := opens.width
      refine ⟨_, (init_ok_iff player).mpr ⟨opens.tiles, .inr ⟨i, found, by omega, rfl⟩⟩, fun _ => ?_⟩
      exact Cell.ofNumber_inside width (Int.natCast_nonneg i) (opens.start i found)

theorem not_opens_madeUp (r : LevelsRepository) : ¬ r.madeUp.Opens := fun opens => opens.tiles rfl

end EngineAR

theorem DataLevel.Edited.opens_iff [CanonicalForm] {l : DataLevel} {edits : List Edit} (edited : l.Edited edits) :
    l.Opens ↔ l.tiles ≠ [] := by
  constructor
  · exact fun opens => opens.tiles
  · intro nonempty
    have playable := edited.wellFormed.playable nonempty
    refine ⟨nonempty, playable.width_pos, playable.height_pos, fun i member => ?_⟩
    have bound := (List.findIdx?_eq_some_iff_getElem.mp (Option.mem_def.mp member)).1
    have count := playable.count
    omega

section Openings

variable (player : List PlayerCommand) {r : LevelsRepository} {at' : Int}

theorem opensSafely_of_getLevel {l : DataLevel} {r₁ r₂ : LevelsRepository}
    (first : (LevelsRepository.getLevel at').run r = .ok l r₁) {l' : DataLevel}
    (second : (LevelsRepository.getLevel at').run r₁ = .ok l' r₂) :
    OpensSafely (GameUISplitViewController.engineAR at' player) r ↔ l'.Opens := by
  rw [← EngineAR.init_safe_iff player]
  unfold OpensSafely
  simp only [GameUISplitViewController.engineAR, EStateM.run_bind, first, second]
  cases EngineAR.init l' player with
  | error trap =>
    constructor
    · intro safe
      obtain ⟨engine, s', ran, _⟩ := safe
      cases ran
    · intro safe
      obtain ⟨engine, built, _⟩ := safe
      cases built
  | ok engine => simp

theorem engineAR_opensSafely_iff :
    OpensSafely (GameUISplitViewController.engineAR at' player) r ↔ ∃ l, at? r.entities at' = some l ∧ l.Opens := by
  cases found : at? r.entities at' with
  | some l =>
    have got := LevelsRepository.run_getLevel_some found
    rw [opensSafely_of_getLevel player got got]
    simp
  | none =>
    have missing : at? { r with drawn := r.drawn + 1 : LevelsRepository }.entities at' = none := found
    have safe := opensSafely_of_getLevel player (LevelsRepository.run_getLevel_none found)
      (LevelsRepository.run_getLevel_none missing)
    rw [safe]
    simp [EngineAR.not_opens_madeUp]

theorem opensSafely_within {σ τ : Type} (part : σ → τ) (put : τ → σ → σ) (opening : Method τ EngineAR) (s : σ) :
    OpensSafely (within part put opening) s ↔ OpensSafely opening (part s) := by
  unfold OpensSafely
  rw [run_within]
  cases opening.run (part s) with
  | ok engine t => simp
  | error trap t => simp

theorem public_opensSafely_iff (toLevel : DataLevel) :
    OpensSafely (PublicLevelsViewController.navigateToGameInterface toLevel player) r ↔
      ∃ l, r.entities.find? (·.uuid = toLevel.uuid) = some l ∧ l.Opens := by
  obtain ⟨at'', ran, same⟩ := LevelsRepository.run_getAt toLevel.uuid r
  rw [← same, ← engineAR_opensSafely_iff player]
  unfold OpensSafely
  simp only [PublicLevelsViewController.navigateToGameInterface, EStateM.run_bind, ran]

end Openings

/-- Whatever the repository holds, a game opens safely from the builder exactly when the selected position is that of
    a level that opens, and from the public levels exactly when the first level with the identifier does. -/
theorem opening_safe_iff (player : List PlayerCommand) :
    (∀ split : LevelsSplitViewController,
      OpensSafely (LevelsSplitViewController.navigateToGameInterface player) split ↔
        ∃ l, at? split.levelsRepository.entities split.at' = some l ∧ l.Opens) ∧
    ∀ (r : LevelsRepository) (toLevel : DataLevel),
      OpensSafely (PublicLevelsViewController.navigateToGameInterface toLevel player) r ↔
        ∃ l, r.entities.find? (·.uuid = toLevel.uuid) = some l ∧ l.Opens := by
  constructor
  · intro split
    rw [← engineAR_opensSafely_iff player]
    have opening := opensSafely_within (·.levelsRepository) (fun r split => { split with levelsRepository := r })
      (GameUISplitViewController.engineAR split.at' player) split
    exact opening
  · intro r toLevel
    exact public_opensSafely_iff player toLevel

def emptiedLevel : DataLevel := { DataLevel.new5x5 "level" "" "me" with width := 0, tiles := [] }

local instance openedTexts : CanonicalForm := .composed

theorem emptiedLevel_edited : emptiedLevel.Edited [.setWidth "0"] :=
  GameScene.edited_of_run (by simp only [List.mem_singleton, forall_eq, Edit.Valid]; exact ⟨0, rfl, Int.le_refl 0⟩)
    rfl rfl

/-- The play button before anything is there, and on a level whose width has been set to zero. -/
theorem opening_traps :
    ¬ OpensSafely (LevelsSplitViewController.navigateToGameInterface []) {} ∧
      (emptiedLevel.Edited [.setWidth "0"] ∧
        ¬ OpensSafely (LevelsSplitViewController.navigateToGameInterface [])
          { levelsRepository := { entities := [emptiedLevel] } }) := by
  refine ⟨fun safe => ?_, emptiedLevel_edited, fun safe => ?_⟩
  · obtain ⟨engine, s', ran, _⟩ := safe
    cases ran
  · obtain ⟨engine, s', ran, _⟩ := safe
    cases ran

end ArRobotCode
