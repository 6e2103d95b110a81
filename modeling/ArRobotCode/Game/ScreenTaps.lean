import ArRobotCode.Game.PlayerSimulation
import ArRobotCode.Game.StartTile

namespace ArRobotCode

open Swift GridWalk Trapping

structure Plane where
  planeAnchor : SCNVector3
  hasParent : Bool := true
deriving DecidableEq, Repr

/-- What a tap hits in the scene; `plane` is the parent of the node, where that is a plane. -/
structure SCNHitTestResult where
  worldCoordinates : SCNVector3
  plane : Option Plane := none
deriving DecidableEq, Repr

structure Tap where
  camera : Bool := true
  hitTestResults : List SCNHitTestResult := []
deriving DecidableEq, Repr

structure ARViewController where
  level : Option DataLevel := none
  sceneController : GameScene
  findingStartPosition : Bool := true
deriving DecidableEq, Repr

/-- The two controllers share the player, whose calls are kept with the engine. -/
structure GameScreen where
  engineAR : EngineAR
  arVC : ARViewController
deriving DecidableEq, Repr

namespace GameScreen

def viewDidLoad (level : DataLevel) (player : List PlayerCommand) (scene : GameScene) : Except Trap GameScreen := do
  let engineAR ← EngineAR.init level player
  return { engineAR := engineAR.restarted, arVC := { level := some level, sceneController := scene } }

def onEngine (x : Method EngineAR Unit) : Method GameScreen Unit :=
  within (·.engineAR) (fun e g => { g with engineAR := e }) x

def withScene (g : GameScreen) (scene : GameScene) : GameScreen :=
  { g with arVC := { g.arVC with sceneController := scene } }

def onScene (x : Method GameScene Unit) : Method GameScreen Unit :=
  within (·.arVC.sceneController) (fun s g => g.withScene s) x

/-- The innermost branch of `didTapScreen`; the anchor and the removal of the planes are left out. -/
def place (hitResult : SCNHitTestResult) (plane : Plane) : Method GameScreen Unit := do
  onScene (GameScene.setGamePosition hitResult.worldCoordinates plane.planeAnchor)
  onScene (GameScene.spawnLevel (← unwrap (← get).arVC.level))
  modify fun g => { g with arVC := { g.arVC with findingStartPosition := false } }

def didTapScreen (tap : Tap) : Method GameScreen Unit := do
  -- The player moves here; the position of the engine is not written.
  if (← get).arVC.findingStartPosition = false then onEngine (EngineAR.command .moveFront)
  if tap.camera = true ∧ (← get).arVC.findingStartPosition = true then
    match tap.hitTestResults.head? with
    | none => return
    | some hitResult =>
      match hitResult.plane with
      | none => return
      | some plane => if plane.hasParent then place hitResult plane

end GameScreen

inductive ScreenAction where
  | engine (op : Operation)
  | tap (tap : Tap)
deriving DecidableEq, Repr

namespace GameScreen

def perform : ScreenAction → Method GameScreen Unit
  | .engine op => onEngine (EngineAR.perform op)
  | .tap tap => didTapScreen tap

/-- From `playerRoot` the offset leads to the place of the tile in this row and column of the level. -/
def OnTile (g : GameScreen) (o : Offset) (p : Position) : Prop :=
  ∃ firstTile root, g.arVC.sceneController.tiles[0]? = some firstTile ∧
    g.arVC.sceneController.playerRoot = some root ∧
    root.position.x + o.x * GameScene.TILE_SIZE - firstTile.position.x = p.y * GameScene.TILE_SIZE ∧
    root.position.z + o.z * GameScene.TILE_SIZE - firstTile.position.z = p.x * GameScene.TILE_SIZE

/-- The robot has the engine's offset and heading, and it stands on the engine's tile if its root is on the start. -/
structure Agrees (node : PlayerAR) (g : GameScreen) : Prop where
  mirrors : (g.engineAR.player node).Mirrors g.engineAR
  tile : g.OnTile ⟨0, 0⟩ g.engineAR.startPosition → g.OnTile (g.engineAR.player node).position g.engineAR.crtPosition

/-- At every moment of a run robot and engine agree, and no tap of it parts them. -/
structure TapsKeepAgreement (node : PlayerAR) (actions : List ScreenAction) (g₀ : GameScreen) : Prop where
  tap : ∀ before tap after g g', actions = before ++ .tap tap :: after →
    (runAll perform before).run g₀ = .ok () g → (didTapScreen tap).run g = .ok () g' → g.Agrees node → g'.Agrees node
  always : ∀ before after g, actions = before ++ after → (runAll perform before).run g₀ = .ok () g → g.Agrees node

def Unplaced (g : GameScreen) : ScreenAction → Prop
  | .engine _ => True
  | .tap _ => g.arVC.findingStartPosition = true

variable {g g' : GameScreen} {node : PlayerAR}

theorem onEngine_run (x : Method EngineAR Unit) (g : GameScreen) :
    (onEngine x).run g = match x.run g.engineAR with
      | .ok _ e => .ok () { g with engineAR := e }
      | .error trap e => .error trap { g with engineAR := e } := by
  rw [onEngine, run_within]
  cases x.run g.engineAR <;> rfl

@[simp] theorem withScene_level (g : GameScreen) (scene : GameScene) :
    (g.withScene scene).arVC.level = g.arVC.level := rfl

@[simp] theorem withScene_sceneController (g : GameScreen) (scene : GameScene) :
    (g.withScene scene).arVC.sceneController = scene := rfl

theorem onScene_run (x : Method GameScene Unit) (g : GameScreen) :
    (onScene x).run g = match x.run g.arVC.sceneController with
      | .ok _ scene => .ok () (g.withScene scene)
      | .error trap scene => .error trap (g.withScene scene) := by
  rw [onScene, run_within]
  cases x.run g.arVC.sceneController <;> rfl

def pushed (g : GameScreen) : GameScreen :=
  { g with engineAR := { g.engineAR with playerController := g.engineAR.playerController ++ [.moveFront] } }

theorem run_didTapScreen_placed (placed : g.arVC.findingStartPosition = false) (tap : Tap) :
    (didTapScreen tap).run g = .ok () g.pushed := by
  simp [didTapScreen, EStateM.run_bind, placed, onEngine_run, EngineAR.command, pushed]

theorem place_cases {hitResult : SCNHitTestResult} {plane : Plane}
    (ran : (place hitResult plane).run g = .ok () g') : ∃ level scene, g.arVC.level = some level ∧
      (GameScene.spawnLevel level).run (final (GameScene.setGamePosition hitResult.worldCoordinates plane.planeAnchor)
        g.arVC.sceneController) = .ok () scene ∧
      g' = { g with arVC := { g.arVC with sceneController := scene, findingStartPosition := false } } := by
  have positioned : (onScene (GameScene.setGamePosition hitResult.worldCoordinates plane.planeAnchor)).run g =
      .ok () (g.withScene (final (GameScene.setGamePosition hitResult.worldCoordinates plane.planeAnchor)
        g.arVC.sceneController)) := rfl
  simp only [place, EStateM.run_bind, positioned, EStateM.run_get, withScene_level] at ran
  cases level : g.arVC.level with
  | none => simp [level] at ran
  | some l =>
    simp only [level, run_unwrap_some, onScene_run, withScene_sceneController] at ran
    cases laid : (GameScene.spawnLevel l).run
        (final (GameScene.setGamePosition hitResult.worldCoordinates plane.planeAnchor) g.arVC.sceneController) with
    | error trap scene => simp [laid] at ran
    | ok _ scene =>
      simp only [laid] at ran
      cases ran
      exact ⟨l, scene, rfl, laid, rfl⟩

theorem didTapScreen_cases (searching : g.arVC.findingStartPosition = true) {tap : Tap}
    (ran : (didTapScreen tap).run g = .ok () g') :
    g' = g ∨ ∃ hitResult plane, (place hitResult plane).run g = .ok () g' := by
  simp only [didTapScreen, EStateM.run_bind, EStateM.run_get, searching, Bool.true_eq_false, if_false, and_true] at ran
  split at ran
  · split at ran
    · cases ran
      exact .inl rfl
    · split at ran
      · cases ran
        exact .inl rfl
      · split at ran
        · exact .inr ⟨_, _, ran⟩
        · cases ran
          exact .inl rfl
  · cases ran
    exact .inl rfl

theorem onTile_iff_of_mirrors (mirrors : (g.engineAR.player node).Mirrors g.engineAR) :
    g.OnTile (g.engineAR.player node).position g.engineAR.crtPosition ↔
      g.OnTile ⟨0, 0⟩ g.engineAR.startPosition := by
  unfold OnTile
  rw [mirrors.position]
  push_cast
  constructor
  · intro here
    obtain ⟨firstTile, root, tiles, playerRoot, x, z⟩ := here
    exact ⟨firstTile, root, tiles, playerRoot, by linarith, by linarith⟩
  · intro home
    obtain ⟨firstTile, root, tiles, playerRoot, x, z⟩ := home
    exact ⟨firstTile, root, tiles, playerRoot, by linarith, by linarith⟩

theorem agrees_of_tracked {start : Position} (tracked : g.engineAR.Tracked node start) : g.Agrees node :=
  ⟨tracked.mirrors, (onTile_iff_of_mirrors tracked.mirrors).mpr⟩

theorem not_agrees_pushed (agrees : g.Agrees node) : ¬ g.pushed.Agrees node := by
  intro agrees'
  have before := agrees.mirrors.position
  have after := agrees'.mirrors.position
  have moved : g.pushed.engineAR.player node = (g.engineAR.player node).moveFront := by
    simp [pushed, EngineAR.player, PlayerAR.perform]
  rw [moved] at after
  exact PlayerAR.moveFront_position_ne _ (after.trans before.symm)

/-- What a run keeps up to the first tap after the level has been placed. -/
structure Staged (node : PlayerAR) (start : Position) (l : DataLevel) (s : GameScene) (g : GameScreen) : Prop where
  tracked : g.engineAR.Tracked node start
  level : g.arVC.level = some l
  searching : g.arVC.findingStartPosition = true → g.arVC.sceneController = s
  placed : g.arVC.findingStartPosition = false → ∃ position extent,
    (GameScene.spawnLevel l).run (final (GameScene.setGamePosition position extent) s) = .ok () g.arVC.sceneController

section Sessions

variable {start : Position} {level : DataLevel} {scene : GameScene} {player : List PlayerCommand} {g₀ : GameScreen}

theorem didTapScreen_staged {tap : Tap} (staged : g.Staged node start level scene)
    (searching : g.arVC.findingStartPosition = true) (ran : (didTapScreen tap).run g = .ok () g') :
    g'.Staged node start level scene := by
  rcases didTapScreen_cases searching ran with same | ⟨hitResult, plane, placed⟩
  · rw [same]
    exact staged
  · obtain ⟨l, laid, here, spawned, shape⟩ := place_cases placed
    cases here.symm.trans staged.level
    rw [staged.searching searching] at spawned
    rw [shape]
    exact ⟨staged.tracked, staged.level, fun again => Bool.noConfusion again, fun _ => ⟨_, _, spawned⟩⟩

theorem perform_staged {action : ScreenAction} (staged : g.Staged node start level scene)
    (unplaced : g.Unplaced action) (ran : (perform action).run g = .ok () g') : g'.Staged node start level scene := by
  cases action with
  | engine op =>
    simp only [perform, onEngine_run] at ran
    cases moved : (EngineAR.perform op).run g.engineAR with
    | error trap e => simp [moved] at ran
    | ok _ e =>
      simp only [moved] at ran
      cases ran
      have tracked := (EngineAR.perform_tracked op).of_run_ok staged.tracked moved
      exact ⟨tracked, staged.level, staged.searching, staged.placed⟩
  | tap tap => exact didTapScreen_staged staged unplaced ran

theorem viewDidLoad_cases (opened : viewDidLoad level player scene = .ok g₀) :
    ∃ e, EngineAR.init level player = .ok e ∧
      g₀ = ⟨e.restarted, { level := some level, sceneController := scene }⟩ := by
  unfold viewDidLoad at opened
  cases built : EngineAR.init level player with
  | error trap => simp [built, Bind.bind, Except.bind] at opened
  | ok e =>
    simp only [built, Bind.bind, Except.bind, Pure.pure, Except.pure] at opened
    cases opened
    exact ⟨e, rfl, rfl⟩

theorem run_staged {e : EngineAR} (built : EngineAR.init level player = .ok e)
    (opened : viewDidLoad level player scene = .ok g₀) {actions : List ScreenAction}
    (unplaced : Along perform Unplaced actions g₀) (ran : (runAll perform actions).run g₀ = .ok () g) :
    g.Staged node e.startPosition level scene := by
  obtain ⟨e', built', shape⟩ := viewDidLoad_cases opened
  cases built.symm.trans built'
  have home : g₀.Staged node e.startPosition level scene := by
    rw [shape]
    exact ⟨EngineAR.restarted_tracked rfl, rfl, fun _ => rfl, fun placed => Bool.noConfusion placed⟩
  apply unplaced.keeps _ home ran
  exact fun g action g' => perform_staged

theorem robot_on_tile_iff (opened : viewDidLoad level player scene = .ok g₀) (noTiles : scene.tiles = [])
    (loaded : ∀ position extent, (final (GameScene.setGamePosition position extent) scene).Loaded)
    (playable : level.Playable) (hasStart : ∃ t ∈ level.tiles, t.type = TypeOfTile.start.rawValue)
    {actions : List ScreenAction} (unplaced : Along perform Unplaced actions g₀)
    (ran : (runAll perform actions).run g₀ = .ok () g) (placed : g.arVC.findingStartPosition = false) :
    g.OnTile (g.engineAR.player node).position g.engineAR.crtPosition ↔ ∃! i, GameScene.StartsAt level i := by
  obtain ⟨i, found, _⟩ := GameScene.exists_first_start hasStart
  have built := EngineAR.init_of_findIdx playable found player
  have staged : g.Staged node _ level scene := run_staged built opened unplaced ran
  obtain ⟨position, extent, spawned⟩ := staged.placed placed
  have first : (final (GameScene.setGamePosition position extent) scene).tiles.length = 0 := by
    rw [show (final (GameScene.setGamePosition position extent) scene).tiles = [] from noTiles]
    rfl
  rw [onTile_iff_of_mirrors staged.tracked.mirrors, staged.tracked.startPosition,
    ← GameScene.sameStart_iff (loaded position extent) playable hasStart]
  simp [OnTile, GameScene.SameStart, final_of_run_ok spawned, first, EngineAR.init_of_findIdx playable found [],
    EngineAR.started]

/-- Robot and engine agree at every moment of a run exactly when no tap of it comes after the level has been placed. -/
theorem taps_keep_agreement_iff (opened : viewDidLoad level player scene = .ok g₀) (node : PlayerAR)
    (actions : List ScreenAction) : TapsKeepAgreement node actions g₀ ↔ Along perform Unplaced actions g₀ := by
  constructor
  · intro kept
    apply along_iff_reached.mpr
    intro before action after g shape ran
    cases action with
    | engine op => trivial
    | tap tap =>
      by_contra placed
      have push := run_didTapScreen_placed (Bool.eq_false_of_not_eq_true placed) tap
      have agrees := kept.always before _ g shape ran
      exact not_agrees_pushed agrees (kept.tap before tap after g _ shape ran push agrees)
  · intro unplaced
    obtain ⟨e, built, _⟩ := viewDidLoad_cases opened
    have always : ∀ before after g, actions = before ++ after → (runAll perform before).run g₀ = .ok () g →
        g.Agrees node := by
      intro before after g shape ran
      rw [shape] at unplaced
      exact agrees_of_tracked (run_staged built opened unplaced.of_append ran).tracked
    refine ⟨fun before tap after g g' shape ran tapped _ => ?_, always⟩
    apply always (before ++ [.tap tap]) after g' (by simp [shape])
    exact runAll_append_ok.mpr ⟨g, ran, runAll_cons_ok.mpr ⟨g', tapped, rfl⟩⟩

def finishAhead : DataLevel :=
  { uuid := "ahead", width := 1, height := 2, tiles := [⟨TypeOfTile.finish.rawValue⟩, ⟨TypeOfTile.start.rawValue⟩] }

def onPlane : Tap :=
  { hitTestResults := [{ worldCoordinates := ⟨0, 0, 0⟩, plane := some { planeAnchor := ⟨1, 0, 1⟩ } }] }

def openedAhead : GameScreen where
  engineAR := (EngineAR.started finishAhead [] ⟨1, 0⟩).restarted
  arVC := { level := some finishAhead, sceneController := GameScene.plainScene }

def robotNode : PlayerAR := ⟨yawOf .down, ⟨3, 0⟩⟩

theorem taps_keep_agreement_until_placed :
    TapsKeepAgreement robotNode
        [.tap {}, .tap onPlane, .engine (.call (.plain .moveFront)), .engine .resetLevel] openedAhead ∧
      viewDidLoad finishAhead [] GameScene.plainScene = .ok openedAhead ∧
      ∃ g, (runAll perform
        [.tap {}, .tap onPlane, .engine (.call (.plain .moveFront)), .engine .resetLevel]).run openedAhead = .ok () g ∧
        g.arVC.findingStartPosition = false := by
  have opened : viewDidLoad finishAhead [] GameScene.plainScene = .ok openedAhead := rfl
  refine ⟨(taps_keep_agreement_iff opened _ _).mpr ?_, opened, _, run_eq_of_trapOf_eq_none rfl, rfl⟩
  exact .cons_final rfl (.cons_final rfl (.cons_final trivial (.cons_final trivial trivial)))

/-- One tap on the placed level: the robot stands on the Finish tile, the engine is not done and still at the start. -/
theorem tap_moves_robot_alone :
    viewDidLoad finishAhead [] GameScene.plainScene = .ok openedAhead ∧
      ¬ TapsKeepAgreement robotNode [.tap onPlane, .tap {}] openedAhead ∧
      ∃ g, (runAll perform [.tap onPlane, .tap {}]).run openedAhead = .ok () g ∧
        g.OnTile (g.engineAR.player robotNode).position ⟨0, 0⟩ ∧
        g.engineAR.crtPosition = ⟨1, 0⟩ ∧ g.engineAR.done = false := by
  have ran : (runAll perform [.tap onPlane, .tap {}]).run openedAhead = _ := run_eq_of_trapOf_eq_none rfl
  refine ⟨rfl, fun kept => ?_, _, ran, ⟨_, _, rfl, rfl, ?_, ?_⟩, rfl, rfl⟩
  · have agrees := kept.always _ [] _ rfl ran
    exact absurd agrees.mirrors.position (by decide)
  · decide +kernel
  · decide +kernel

end Sessions

end GameScreen

end ArRobotCode
