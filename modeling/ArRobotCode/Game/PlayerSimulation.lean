import ArRobotCode.Game.EngineSafety

namespace ArRobotCode

open Swift GridWalk Trapping

def yawOf : Heading → Fin 4
  | .up => ⟨2, by decide⟩
  | .right => ⟨1, by decide⟩
  | .down => ⟨0, by decide⟩
  | .left => ⟨3, by decide⟩

structure PlayerAR.Tracks (r : PlayerAR) (start : Cell) (p : Pose) : Prop where
  x : r.position.x = p.cell.column - start.column
  z : r.position.z = p.cell.row - start.row
  yaw : r.yaw = yawOf p.heading

/-- The player stands where the engine does, counted from the start tile, and its yaw is the only one
    whose front move goes the way of the engine's direction. -/
structure PlayerAR.Mirrors (r : PlayerAR) (e : EngineAR) : Prop where
  position : r.position = ⟨e.crtPosition.y - e.startPosition.y, e.crtPosition.x - e.startPosition.x⟩
  yaw : ∃ d, at? EngineAR.dxdy e.crtDXDY = some d ∧ ∀ yaw : Fin 4,
    ({ r with yaw := yaw } : PlayerAR).moveFront.position = ⟨r.position.x + d.y, r.position.z + d.x⟩ ↔ yaw = r.yaw

namespace PlayerAR

theorem Tracks.reset (r : PlayerAR) (start : Cell) : r.reset.Tracks start ⟨start, .up⟩ := by
  rw [reset_eq]
  exact ⟨(Int.sub_self _).symm, (Int.sub_self _).symm, rfl⟩

theorem simdWorldFront_eq {r : PlayerAR} {h : Heading} (yaw : r.yaw = yawOf h) :
    r.simdWorldFront = ⟨-h.ahead.column, -h.ahead.row⟩ := by
  rw [simdWorldFront, yaw]
  cases h <;> decide

theorem moveFront_position {r : PlayerAR} {h : Heading} (yaw : r.yaw = yawOf h) :
    r.moveFront.position = ⟨r.position.x + h.ahead.column, r.position.z + h.ahead.row⟩ := by
  simp [moveFront, simdWorldFront_eq yaw]

theorem moveBack_position {r : PlayerAR} {h : Heading} (yaw : r.yaw = yawOf h) :
    r.moveBack.position = ⟨r.position.x - h.ahead.column, r.position.z - h.ahead.row⟩ := by
  simp [moveBack, simdWorldFront_eq yaw, Int.sub_eq_add_neg]

theorem yawOf_surjective (yaw : Fin 4) : ∃ h, yawOf h = yaw :=
  match yaw with
  | 0 => ⟨.down, rfl⟩
  | 1 => ⟨.right, rfl⟩
  | 2 => ⟨.up, rfl⟩
  | 3 => ⟨.left, rfl⟩

theorem yaw_of_moveFront (r : PlayerAR) (h : Heading) (yaw : Fin 4) :
    ({ r with yaw := yaw } : PlayerAR).moveFront.position =
      ⟨r.position.x + h.ahead.column, r.position.z + h.ahead.row⟩ ↔ yaw = yawOf h := by
  obtain ⟨k, rfl⟩ := yawOf_surjective yaw
  rw [moveFront_position (h := k) rfl, Offset.mk.injEq]
  constructor
  · intro given
    rcases given with ⟨column, row⟩
    have ahead : k.ahead = h.ahead := Cell.ext (Int.add_left_cancel row) (Int.add_left_cancel column)
    rw [Heading.ahead_injective ahead]
  · intro same
    have heading : k = h := by
      revert same
      cases k <;> cases h <;> decide
    rw [heading]
    exact ⟨rfl, rfl⟩

theorem moveFront_position_ne (r : PlayerAR) : r.moveFront.position ≠ r.position := by
  obtain ⟨h, yaw⟩ := yawOf_surjective r.yaw
  rw [moveFront_position yaw.symm]
  intro same
  have x := congrArg Offset.x same
  have z := congrArg Offset.z same
  cases h <;> simp [Heading.ahead] at x z

theorem Tracks.perform {r : PlayerAR} {start : Cell} {p : Pose} (tracks : r.Tracks start p) (m : Motion) :
    (r.perform m.command).Tracks start (p.after m.step) := by
  obtain ⟨x, z, yaw⟩ := tracks
  cases m with
  | moveFront =>
    have position := moveFront_position yaw
    refine ⟨?_, ?_, yaw⟩
    · simp only [PlayerAR.perform, Motion.command, Motion.step, Pose.after, position, x]
      omega
    · simp only [PlayerAR.perform, Motion.command, Motion.step, Pose.after, position, z]
      omega
  | moveBack =>
    have position := moveBack_position yaw
    refine ⟨?_, ?_, yaw⟩
    · simp only [PlayerAR.perform, Motion.command, Motion.step, Pose.after, position, x]
      omega
    · simp only [PlayerAR.perform, Motion.command, Motion.step, Pose.after, position, z]
      omega
  | turnLeft =>
    refine ⟨x, z, ?_⟩
    simp only [PlayerAR.perform, Motion.command, Motion.step, Pose.after, turnLeft, yaw]
    cases p.heading <;> rfl
  | turnRight =>
    refine ⟨x, z, ?_⟩
    simp only [PlayerAR.perform, Motion.command, Motion.step, Pose.after, turnRight, yaw]
    cases p.heading <;> rfl

end PlayerAR

namespace EngineAR

def player (node : PlayerAR) (e : EngineAR) : PlayerAR := e.playerController.foldl PlayerAR.perform node.init

/-- The robot has the engine's pose, counted from the start, whatever the level is. -/
structure Tracked (node : PlayerAR) (start : Position) (e : EngineAR) : Prop where
  startPosition : e.startPosition = start
  pose : ∃ p, e.At p ∧ (e.player node).Tracks start.cell p

structure Simulated (l : DataLevel) (c : Cell) (node : PlayerAR) (e : EngineAR) : Prop where
  safe : e.Safe l c
  pose : ∃ p, e.At p ∧ (e.player node).Tracks c p

variable {l : DataLevel} {c : Cell} {node : PlayerAR} {start : Position}

theorem player_ordered (e : EngineAR) (m : Motion) (p : Pose) :
    (e.ordered m p).player node = (e.player node).perform m.command := by
  simp [player, ordered]

theorem Tracked.mirrors {e : EngineAR} (tracked : e.Tracked node start) : (e.player node).Mirrors e := by
  obtain ⟨same, p, stands, tracks⟩ := tracked
  refine ⟨?_, _, by rw [stands.direction]; exact at?_dxdy p.heading, ?_⟩
  · ext
    · rw [tracks.x, stands.position, same]
      rfl
    · rw [tracks.z, stands.position, same]
      rfl
  · intro yaw
    rw [tracks.yaw]
    exact PlayerAR.yaw_of_moveFront _ _ _

theorem Tracked.congr {e e' : EngineAR} (tracked : e.Tracked node start) (same : e'.startPosition = e.startPosition)
    (position : e'.crtPosition = e.crtPosition) (direction : e'.crtDXDY = e.crtDXDY)
    (orders : e'.playerController = e.playerController) : e'.Tracked node start := by
  obtain ⟨here, p, stands, tracks⟩ := tracked
  refine ⟨same.trans here, p, ⟨position.trans stands.position, direction.trans stands.direction⟩, ?_⟩
  simpa only [player, orders] using tracks

theorem restarted_tracked {e : EngineAR} (same : e.startPosition = start) : e.restarted.Tracked node start := by
  subst same
  refine ⟨rfl, ⟨e.startPosition.cell, .up⟩, ⟨rfl, rfl⟩, ?_⟩
  have home := PlayerAR.Tracks.reset (e.player node) e.startPosition.cell
  simpa [player, EngineAR.restarted, PlayerAR.perform] using home

theorem ordered_tracked {e : EngineAR} {p : Pose} (same : e.startPosition = start)
    (tracks : (e.player node).Tracks start.cell p) (m : Motion) :
    (e.ordered m (p.after m.step)).Tracked node start := by
  refine ⟨same, p.after m.step, ⟨rfl, rfl⟩, ?_⟩
  rw [player_ordered]
  exact tracks.perform m

theorem triple_matrixCoordinatesToVector {pre : EngineAR → Prop} (i j : Int) :
    Triple pre (matrixCoordinatesToVector i j) (fun _ => pre) fun _ _ => True := by
  unfold matrixCoordinatesToVector
  apply Triple.get_bind
  intro e
  exact (triple_checked _).bind fun row => triple_checked _

theorem triple_crtTileType {pre : EngineAR → Prop} : Triple pre crtTileType (fun _ => pre) fun _ _ => True := by
  unfold crtTileType
  apply Triple.get_bind
  intro e
  apply (triple_matrixCoordinatesToVector _ _).bind
  intro crtVectorPos
  exact (triple_subscript _ _).bind fun tile => Triple.pure fun _ start => start

theorem checkIfInvalid_tracked :
    Triple (Tracked node start) checkIfInvalid (fun _ => Tracked node start) fun _ _ => True := by
  have refused : Triple (Tracked node start) (do
      modify fun e => { e with valid := false }
      publish "invalid"
      return true : Method EngineAR Bool) (fun _ => Tracked node start) fun _ _ => True :=
    fun _ tracked => tracked.congr rfl rfl rfl rfl
  unfold checkIfInvalid
  apply Triple.get_bind
  intro e
  split
  · exact refused
  · apply triple_crtTileType.bind
    intro type
    split
    · exact refused
    · exact fun _ tracked => tracked

theorem checkIfDone_tracked :
    Triple (Tracked node start) checkIfDone (fun _ => Tracked node start) fun _ _ => True := by
  unfold checkIfDone
  apply triple_crtTileType.bind
  intro type
  split
  · exact fun _ tracked => tracked.congr rfl rfl rfl rfl
  · exact fun _ tracked => tracked

theorem judge_tracked : Triple (Tracked node start) judge (fun _ => Tracked node start) fun _ _ => True := by
  unfold judge
  apply checkIfInvalid_tracked.bind
  intro invalid
  split
  · exact fun _ tracked => tracked
  · exact checkIfDone_tracked.bind fun done => fun _ tracked => tracked

theorem advance_tracked {m : Motion} {text : String} {shift : Int → Int → Int} {e : EngineAR} {p : Pose}
    (active : e.isFinished = false) (same : e.startPosition = start) (stands : e.At p)
    (tracks : (e.player node).Tracks start.cell p)
    (sameHeading : (p.after m.step).heading = p.heading)
    (row : shift p.cell.row p.heading.ahead.row = (p.after m.step).cell.row)
    (column : shift p.cell.column p.heading.ahead.column = (p.after m.step).cell.column) {e' : EngineAR}
    (ran : (advance text m.command shift).run e = .ok () e') : e'.Tracked node start := by
  by_cases fits : (intMin ≤ (p.after m.step).cell.row ∧ (p.after m.step).cell.row ≤ intMax) ∧
      intMin ≤ (p.after m.step).cell.column ∧ (p.after m.step).cell.column ≤ intMax
  · rw [run_advance_judge active stands text m.command _ row column fits.1 fits.2] at ran
    have direction : e.crtDXDY = headingIndex (p.after m.step).heading := by rw [sameHeading, stands.direction]
    apply judge_tracked.of_run_ok _ ran
    exact (ordered_tracked same tracks m).congr rfl rfl direction rfl
  · have traps := trapOf_advance_overflow active stands text m.command _ row column fits
    simp [trapOf, ran] at traps

theorem performMotion_ok_tracked (m : Motion) {e e' : EngineAR} (tracked : e.Tracked node start)
    (active : e.isFinished = false) (ran : (performMotion m).run e = .ok () e') : e'.Tracked node start := by
  obtain ⟨same, p, stands, tracks⟩ := tracked
  cases m with
  | moveFront => exact @advance_tracked _ _ .moveFront _ _ _ _ active same stands tracks rfl rfl rfl _ ran
  | moveBack => exact @advance_tracked _ _ .moveBack _ _ _ _ active same stands tracks rfl rfl rfl _ ran
  | turnLeft | turnRight =>
    rw [run_turn active stands rfl] at ran
    cases ran
    exact ordered_tracked same tracks _

theorem performMotion_tracked (m : Motion) :
    Triple (Tracked node start) (performMotion m) (fun _ => Tracked node start) fun _ _ => True := by
  intro e tracked
  cases finished : e.isFinished with
  | true =>
    have ran : (performMotion m).run e = .ok () e := run_performCall_finished finished (.plain m)
    rw [ran]
    exact tracked
  | false =>
    cases ran : (performMotion m).run e with
    | error trap e' => trivial
    | ok _ e' => exact performMotion_ok_tracked m tracked finished ran

theorem performCall_tracked (call : Call) :
    Triple (Tracked node start) (performCall call) (fun _ => Tracked node start) fun _ _ => True := by
  cases call with
  | plain m => exact performMotion_tracked m
  | conditional m code =>
    rw [performCall_conditional]
    unfold ifTile
    apply Triple.get_bind
    intro e
    split
    · exact fun _ tracked => tracked
    · apply triple_crtTileType.bind
      intro type
      apply (triple_unwrap _).bind
      intro number
      apply (triple_checked _).bind
      intro expected
      split
      · exact performMotion_tracked m
      · exact fun _ tracked => tracked.congr rfl rfl rfl rfl

theorem perform_tracked (op : Operation) :
    Triple (Tracked node start) (perform op) (fun _ => Tracked node start) fun _ _ => True := by
  cases op with
  | call call => exact performCall_tracked call
  | stopLevel => exact fun _ tracked => tracked.congr rfl rfl rfl rfl
  | resetLevel => exact fun e tracked => restarted_tracked tracked.startPosition

theorem Safe.restarted_simulated {e : EngineAR} (safe : e.Safe l c) : e.restarted.Simulated l c node :=
  ⟨safe.restarted, (restarted_tracked safe.start).pose⟩

theorem Simulated.tracked {e : EngineAR} (simulated : e.Simulated l c node) : e.Tracked node ⟨c.row, c.column⟩ :=
  ⟨simulated.safe.start, simulated.pose⟩

theorem Simulated.mirrors {e : EngineAR} (simulated : e.Simulated l c node) : (e.player node).Mirrors e :=
  simulated.tracked.mirrors

theorem performMotion_simulated (playable : l.Playable) (m : Motion) {e : EngineAR}
    (simulated : e.Simulated l c node) (active : e.isFinished = false) :
    ∃ e', (performMotion m).run e = .ok () e' ∧ e'.Simulated l c node := by
  obtain ⟨e', ran, safe⟩ := performMotion_safe playable c m simulated.safe active
  exact ⟨e', ran, safe, (performMotion_ok_tracked m simulated.tracked active ran).pose⟩

theorem perform_simulated (playable : l.Playable) (op : Operation) :
    Triple (Simulated l c node) (perform op) (fun _ => Simulated l c node)
      fun _ e => e.Simulated l c node ∧ True := by
  intro e simulated
  obtain ⟨safe, p, stands, tracks⟩ := simulated
  cases op with
  | stopLevel => exact ⟨safe.stopped, p, ⟨stands.position, stands.direction⟩, tracks⟩
  | resetLevel => exact safe.restarted_simulated
  | call call =>
    cases finished : e.isFinished with
    | true =>
      simp only [perform, run_performCall_finished finished]
      exact ⟨safe, p, stands, tracks⟩
    | false =>
      cases call with
      | plain m =>
        obtain ⟨e', ran, simulated'⟩ := performMotion_simulated playable m ⟨safe, p, stands, tracks⟩ finished
        simp only [perform, performCall, ran]
        exact simulated'
      | conditional m code =>
        have inside := safe.inside finished
        rw [← safe.level] at inside
        simp only [perform, run_conditional (by rw [safe.level]; exact playable) finished inside]
        cases tileTypeOf code with
        | error trap => exact ⟨⟨safe, p, stands, tracks⟩, trivial⟩
        | ok type =>
          by_cases same : e.level.tileAt e.crtPosition.cell = some type
          · obtain ⟨e', ran, simulated'⟩ := performMotion_simulated playable m ⟨safe, p, stands, tracks⟩ finished
            simp only [same, if_true, ran]
            exact simulated'
          · simp only [same, if_false]
            exact ⟨⟨safe.level, safe.start, safe.startInside, safe.facing, safe.inside⟩, p,
              ⟨stands.position, stands.direction⟩, tracks⟩

/-- From the first reset on, whatever operations follow, the player mirrors the engine. -/
theorem player_simulates_engine (playable : l.Playable) (node : PlayerAR) :
    ∃ e₀, init l [] = .ok e₀ ∧ ∀ ops : List Operation,
      ((final (runAll perform (.resetLevel :: ops)) e₀).player node).Mirrors
        (final (runAll perform (.resetLevel :: ops)) e₀) := by
  obtain ⟨c, inside, built, _⟩ := init_started playable []
  refine ⟨_, built, fun ops => ?_⟩
  have home : (started l [] c).restarted.Simulated l c node := (started_safe inside).restarted_simulated
  have first : (perform .resetLevel).run (started l [] c) = .ok () (started l [] c).restarted := run_resetLevel
  rw [final_runAll_cons first]
  exact ((Triple.runAll fun op _ => perform_simulated playable op).final home).1.mirrors

theorem player_simulates_engine_short :
    ∃ e₀, init shortLevel [] = .ok e₀ ∧
      ((final (runAll perform [.resetLevel, .call (.plain .moveFront), .resetLevel]) e₀).player ⟨0, ⟨3, 0⟩⟩).Mirrors
        (final (runAll perform [.resetLevel, .call (.plain .moveFront), .resetLevel]) e₀) := by
  obtain ⟨e₀, built, mirrors⟩ := player_simulates_engine shortLevel_playable ⟨0, ⟨3, 0⟩⟩
  exact ⟨e₀, built, mirrors _⟩

end EngineAR

end ArRobotCode
