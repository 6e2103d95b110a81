import ArRobotCode.Game.EngineSteps

namespace ArRobotCode

open Swift GridWalk Trapping

def DataLevel.IsFirstStart (l : DataLevel) (c : Cell) : Prop :=
  l.tileAt c = some TypeOfTile.start.rawValue ∧
    ∀ d : Cell, d.row < c.row ∨ (d.row = c.row ∧ d.column < c.column) →
      l.tileAt d ≠ some TypeOfTile.start.rawValue

theorem DataLevel.Playable.isFirstStart_ofNumber {l : DataLevel} (playable : l.Playable) {i : Nat}
    (found : l.tiles.findIdx? (·.type = TypeOfTile.start.rawValue) = some i) :
    (Cell.ofNumber l.width i).Inside l.width l.height ∧ l.IsFirstStart (Cell.ofNumber l.width i) := by
  obtain ⟨bound, isStart, earlier⟩ := List.findIdx?_eq_some_iff_getElem.mp found
  have nonneg : (0 : Int) ≤ i := Int.natCast_nonneg i
  have below : (i : Int) < l.width * l.height := by have := playable.count; omega
  have inside := Cell.ofNumber_inside playable.width_pos nonneg below
  have number : (Cell.ofNumber l.width i).number l.width = i := Cell.number_ofNumber nonneg
  refine ⟨inside, ?_, ?_⟩
  · simp only [tileAt, inside, if_true, number, at?_natCast, List.getElem?_eq_getElem bound, Option.map_some]
    simpa using isStart
  · intro d before start
    have dInside : d.Inside l.width l.height := by
      by_contra outside
      simp [tileAt_outside outside] at start
    have less := (dInside.number_lt_iff inside).mpr before
    rw [number] at less
    obtain ⟨dNonneg, _⟩ := dInside.number_bounds
    have short : (d.number l.width).toNat < i := by omega
    have dBound : (d.number l.width).toNat < l.tiles.length := by omega
    have notStart := earlier (d.number l.width).toNat short
    simp only [tileAt, dInside, if_true, at?, dNonneg, List.getElem?_eq_getElem dBound, Option.map_some,
      Option.some.injEq] at start
    simp [start] at notStart

namespace EngineAR

def started (l : DataLevel) (player : List PlayerCommand) (c : Cell) : EngineAR :=
  { level := l, playerController := player, startPosition := ⟨c.row, c.column⟩, crtPosition := ⟨c.row, c.column⟩ }

theorem init_of_findIdx {l : DataLevel} (playable : l.Playable) {i : Nat}
    (found : l.tiles.findIdx? (·.type = TypeOfTile.start.rawValue) = some i) (player : List PlayerCommand) :
    init l player = .ok (started l player (Cell.ofNumber l.width i)) := by
  have width := playable.width_pos
  have nonempty : l.tiles.length ≠ 0 := by
    have bound := (List.findIdx?_eq_some_iff_getElem.mp found).1
    omega
  simp [init, nonempty, found, vectorCoordinatesToMatrix, show l.width ≠ 0 by omega, started, Cell.ofNumber,
    Bind.bind, Except.bind, pure, Except.pure]

theorem init_started {l : DataLevel} (playable : l.Playable) (player : List PlayerCommand) :
    ∃ c : Cell, c.Inside l.width l.height ∧ init l player = .ok (started l player c) ∧
      ((∃ t ∈ l.tiles, t.type = TypeOfTile.start.rawValue) → l.IsFirstStart c) := by
  have width := playable.width_pos
  have height := playable.height_pos
  cases found : l.tiles.findIdx? (·.type = TypeOfTile.start.rawValue) with
  | some i =>
    obtain ⟨inside, first⟩ := playable.isFirstStart_ofNumber found
    exact ⟨Cell.ofNumber l.width i, inside, init_of_findIdx playable found player, fun _ => first⟩
  | none =>
    have nonempty : l.tiles.length ≠ 0 := by
      have product : 0 < l.width * l.height := Int.mul_pos width height
      have := playable.count
      omega
    refine ⟨⟨0, 0⟩, ⟨Int.le_refl 0, height, Int.le_refl 0, width⟩, ?_, ?_⟩
    · simp [init, nonempty, found, started, pure, Except.pure]
    · intro given
      rcases given with ⟨t, member, start⟩
      have none := List.findIdx?_eq_none_iff.mp found t member
      simp [start] at none

/-- What every operation relies on and keeps, in a game on a level that the robot starts in a given cell. -/
structure Safe (l : DataLevel) (c : Cell) (e : EngineAR) : Prop where
  level : e.level = l
  start : e.startPosition = ⟨c.row, c.column⟩
  startInside : c.Inside l.width l.height
  facing : ∃ h, e.crtDXDY = headingIndex h
  inside : e.isFinished = false → e.crtPosition.cell.Inside l.width l.height

theorem Safe.stands {l : DataLevel} {c : Cell} {e : EngineAR} (safe : e.Safe l c) :
    ∃ p : Pose, e.At p ∧ p.cell = e.crtPosition.cell := by
  obtain ⟨h, direction⟩ := safe.facing
  exact ⟨⟨e.crtPosition.cell, h⟩, ⟨rfl, direction⟩, rfl⟩

theorem started_safe {l : DataLevel} {player : List PlayerCommand} {c : Cell}
    (inside : c.Inside l.width l.height) : (started l player c).Safe l c :=
  ⟨rfl, rfl, inside, ⟨.up, rfl⟩, fun _ => inside⟩

theorem Safe.afterMotion {l : DataLevel} {c : Cell} {e : EngineAR} (safe : e.Safe l c) {m : Motion} {p : Pose}
    (turn : m.step.moves = false → p.cell.Inside l.width l.height) : (e.afterMotion m p).Safe l c := by
  obtain ⟨rfl, start, startInside, _, _⟩ := safe
  simp only [EngineAR.afterMotion]
  split
  · cases verdict : e.level.verdict p.cell with
    | goesOn => exact ⟨rfl, start, startInside, ⟨p.heading, rfl⟩, fun _ => DataLevel.inside_of_goesOn verdict⟩
    | invalid => exact ⟨rfl, start, startInside, ⟨p.heading, rfl⟩, by simp [judged, isFinished]⟩
    | done => exact ⟨rfl, start, startInside, ⟨p.heading, rfl⟩, by simp [judged, isFinished]⟩
  · rename_i noMove
    exact ⟨rfl, start, startInside, ⟨p.heading, rfl⟩, fun _ => turn (by simpa using noMove)⟩

theorem Safe.stopped {l : DataLevel} {c : Cell} {e : EngineAR} (safe : e.Safe l c) : e.stopped.Safe l c :=
  ⟨safe.level, safe.start, safe.startInside, safe.facing, by simp [EngineAR.stopped, isFinished]⟩

theorem Safe.restarted {l : DataLevel} {c : Cell} {e : EngineAR} (safe : e.Safe l c) : e.restarted.Safe l c := by
  refine ⟨safe.level, safe.start, safe.startInside, ⟨.up, rfl⟩, fun _ => ?_⟩
  have inside := safe.startInside
  rwa [show c = e.startPosition.cell by rw [safe.start]; rfl] at inside

section Runs

variable {l : DataLevel} (playable : l.Playable) (c : Cell)

include playable

theorem performMotion_safe (m : Motion) {e : EngineAR} (safe : e.Safe l c) (active : e.isFinished = false) :
    ∃ e', (performMotion m).run e = .ok () e' ∧ e'.Safe l c := by
  obtain ⟨p, stands, cell⟩ := safe.stands
  have inside := safe.inside active
  have ran := run_performMotion (by rw [safe.level]; exact playable) active stands
    (by rw [safe.level, cell]; exact inside) m
  refine ⟨_, ran, safe.afterMotion fun turn => ?_⟩
  rw [Pose.after_turn_cell p turn, cell]
  exact inside

theorem perform_safe (op : Operation) :
    Triple (Safe l c) (perform op) (fun _ => Safe l c) fun trap e => e.Safe l c ∧ trap ≠ .indexOutOfRange := by
  intro e safe
  cases op with
  | stopLevel => exact safe.stopped
  | resetLevel => exact safe.restarted
  | call call =>
    cases finished : e.isFinished with
    | true =>
      simp only [perform, run_performCall_finished finished]
      exact safe
    | false =>
      cases call with
      | plain m =>
        obtain ⟨e', ran, safe'⟩ := performMotion_safe playable c m safe finished
        simp only [perform, performCall, ran]
        exact safe'
      | conditional m code =>
        have inside := safe.inside finished
        rw [← safe.level] at inside
        simp only [perform, run_conditional (by rw [safe.level]; exact playable) finished inside]
        cases read : tileTypeOf code with
        | error trap => exact ⟨safe, tileTypeOf_traps read⟩
        | ok type =>
          by_cases same : e.level.tileAt e.crtPosition.cell = some type
          · obtain ⟨e', ran, safe'⟩ := performMotion_safe playable c m safe finished
            simp only [same, if_true, ran]
            exact safe'
          · simp only [same, if_false]
            exact ⟨safe.level, safe.start, safe.startInside, safe.facing, safe.inside⟩

theorem run_safe (ops : List Operation) :
    Triple (Safe l c) (runAll perform ops) (fun _ => Safe l c) fun trap e => e.Safe l c ∧ trap ≠ .indexOutOfRange :=
  Triple.runAll fun op _ => perform_safe playable c op

end Runs

/-- From `init` on, whatever operations follow in whatever order, the direction is an index of `dxdy`,
    an unfinished engine stands on the grid, and no array access is out of range. -/
theorem engine_index_safety {l : DataLevel} (playable : l.Playable) (player : List PlayerCommand) :
    ∃ e₀, init l player = .ok e₀ ∧ ∀ ops : List Operation,
      (0 ≤ (final (runAll perform ops) e₀).crtDXDY ∧ (final (runAll perform ops) e₀).crtDXDY ≤ 3) ∧
      ((final (runAll perform ops) e₀).isFinished = false →
        0 ≤ (final (runAll perform ops) e₀).crtPosition.x ∧
        (final (runAll perform ops) e₀).crtPosition.x < l.height ∧
        0 ≤ (final (runAll perform ops) e₀).crtPosition.y ∧
        (final (runAll perform ops) e₀).crtPosition.y < l.width) ∧
      trapOf (runAll perform ops) e₀ ≠ some .indexOutOfRange := by
  obtain ⟨c, inside, built, _⟩ := init_started playable player
  refine ⟨_, built, fun ops => ?_⟩
  obtain ⟨safe, allowed⟩ := (run_safe playable c ops).final (started_safe inside)
  obtain ⟨h, direction⟩ := safe.facing
  refine ⟨by rw [direction]; exact headingIndex_bounds h, fun active => safe.inside active, ?_⟩
  intro trapped
  exact allowed _ trapped rfl

def shortLevel : DataLevel :=
  { uuid := "short", width := 2, height := 1, tiles := [⟨TypeOfTile.start.rawValue⟩, ⟨TypeOfTile.finish.rawValue⟩] }

theorem shortLevel_playable : shortLevel.Playable := ⟨by decide, by decide, by decide, by decide⟩

theorem engine_index_safety_short :
    ∃ e₀, init shortLevel [] = .ok e₀ ∧
      trapOf (runAll perform [.resetLevel, .call (.plain .turnRight), .call (.conditional .moveFront "99")]) e₀ ≠
        some .indexOutOfRange := by
  obtain ⟨e₀, built, safe⟩ := engine_index_safety shortLevel_playable []
  exact ⟨e₀, built, (safe _).2.2⟩

end EngineAR

end ArRobotCode
