import ArRobotCode.Game.Engine

namespace ArRobotCode

open Swift GridWalk Trapping

structure DataLevel.Playable (l : DataLevel) : Prop where
  width_pos : 0 < l.width
  height_pos : 0 < l.height
  count : (l.tiles.length : Int) = l.width * l.height
  fits : (l.tiles.length : Int) ≤ intMax

def DataLevel.tileAt (l : DataLevel) (c : Cell) : Option Int :=
  if c.Inside l.width l.height then (at? l.tiles (c.number l.width)).map (·.type) else none

def Position.cell (p : Position) : Cell := ⟨p.x, p.y⟩

namespace DataLevel.Playable

variable {l : DataLevel} (playable : l.Playable)

include playable

theorem width_le : l.width ≤ intMax := by
  have product : l.width * 1 ≤ l.width * l.height :=
    Int.mul_le_mul_of_nonneg_left (by have := playable.height_pos; omega) (by have := playable.width_pos; omega)
  have := playable.count
  have := playable.fits
  omega

theorem height_le : l.height ≤ intMax := by
  have product : 1 * l.height ≤ l.width * l.height :=
    Int.mul_le_mul_of_nonneg_right (by have := playable.width_pos; omega) (by have := playable.height_pos; omega)
  have := playable.count
  have := playable.fits
  omega

theorem tileAt_inside {c : Cell} (inside : c.Inside l.width l.height) :
    ∃ tile, at? l.tiles (c.number l.width) = some tile ∧ l.tileAt c = some tile.type := by
  obtain ⟨nonneg, bound⟩ := inside.number_bounds
  rw [← playable.count] at bound
  obtain ⟨tile, found⟩ := at?_of_bounds nonneg bound
  exact ⟨tile, found, by simp [tileAt, inside, found]⟩

end DataLevel.Playable

theorem DataLevel.tileAt_outside {l : DataLevel} {c : Cell} (outside : ¬ c.Inside l.width l.height) :
    l.tileAt c = none := if_neg outside

inductive Verdict where
  | goesOn | invalid | done
deriving DecidableEq, Repr

def DataLevel.verdict (l : DataLevel) (c : Cell) : Verdict :=
  match l.tileAt c with
  | none => .invalid
  | some type =>
    if type = TypeOfTile.free.rawValue then .invalid
    else if type = TypeOfTile.finish.rawValue then .done
    else .goesOn

theorem DataLevel.inside_of_goesOn {l : DataLevel} {c : Cell} (on : l.verdict c = .goesOn) :
    c.Inside l.width l.height := by
  by_contra outside
  simp [verdict, tileAt_outside outside] at on

namespace EngineAR

def judged (e : EngineAR) : Verdict → EngineAR
  | .goesOn => e
  | .invalid => { e with valid := false, eventsBehaviourSubject := e.eventsBehaviourSubject ++ ["invalid"] }
  | .done => { e with done := true, eventsBehaviourSubject := e.eventsBehaviourSubject ++ ["done"] }

variable {e : EngineAR}

theorem isFinished_eq_false : e.isFinished = false ↔ e.valid = true ∧ e.done = false := by
  simp [isFinished]

theorem run_matrixCoordinatesToVector (playable : e.level.Playable) {c : Cell}
    (inside : c.Inside e.level.width e.level.height) :
    (matrixCoordinatesToVector c.row c.column).run e = .ok (c.number e.level.width) e := by
  obtain ⟨nonneg, bound⟩ := inside.number_bounds
  have fits := playable.fits
  have count := playable.count
  have low := show intMin ≤ 0 by decide
  have row : 0 ≤ c.row * e.level.width := Int.mul_nonneg inside.1 (by have := playable.width_pos; omega)
  have column := inside.2.2.1
  simp only [Cell.number] at nonneg bound
  simp only [matrixCoordinatesToVector, EStateM.run_bind, EStateM.run_get,
    run_checked_of_fits (show intMin ≤ c.row * e.level.width by omega) (by omega),
    run_checked_of_fits (show intMin ≤ c.row * e.level.width + c.column by omega) (by omega), Cell.number]

theorem run_crtTileType (playable : e.level.Playable)
    (inside : e.crtPosition.cell.Inside e.level.width e.level.height) :
    ∃ type, e.level.tileAt e.crtPosition.cell = some type ∧ crtTileType.run e = .ok type e := by
  obtain ⟨tile, found, type⟩ := playable.tileAt_inside inside
  have index := run_matrixCoordinatesToVector playable inside
  simp only [Position.cell] at index found
  refine ⟨tile.type, type, ?_⟩
  simp only [crtTileType, EStateM.run_bind, EStateM.run_get, index]
  rw [run_subscript_of_some found]
  rfl

theorem run_checkIfInvalid (playable : e.level.Playable) :
    checkIfInvalid.run e = if e.level.verdict e.crtPosition.cell = .invalid
      then .ok true (e.judged .invalid) else .ok false e := by
  by_cases inside : e.crtPosition.cell.Inside e.level.width e.level.height
  · obtain ⟨type, tile, read⟩ := run_crtTileType playable inside
    have onGrid : ¬ (e.crtPosition.x < 0 ∨ e.crtPosition.x ≥ e.level.height ∨
        e.crtPosition.y < 0 ∨ e.crtPosition.y ≥ e.level.width) := by
      simp only [Cell.Inside, Position.cell] at inside
      omega
    by_cases free : type = TypeOfTile.free.rawValue
    · simp [checkIfInvalid, publish, -bind_pure_comp, EStateM.run_bind, onGrid, read, free, DataLevel.verdict, tile,
        judged]
    · by_cases finish : type = TypeOfTile.finish.rawValue
      · rw [finish] at free read tile
        simp [checkIfInvalid, -bind_pure_comp, EStateM.run_bind, onGrid, read, free, DataLevel.verdict, tile]
      · simp [checkIfInvalid, -bind_pure_comp, EStateM.run_bind, onGrid, read, free, finish, DataLevel.verdict, tile]
  · have offGrid : e.crtPosition.x < 0 ∨ e.crtPosition.x ≥ e.level.height ∨
        e.crtPosition.y < 0 ∨ e.crtPosition.y ≥ e.level.width := by
      simp only [Cell.Inside, Position.cell] at inside
      omega
    simp [checkIfInvalid, publish, -bind_pure_comp, EStateM.run_bind, offGrid, DataLevel.verdict,
      DataLevel.tileAt_outside inside, judged]

theorem run_checkIfDone (playable : e.level.Playable) (valid : e.level.verdict e.crtPosition.cell ≠ .invalid) :
    checkIfDone.run e = if e.level.verdict e.crtPosition.cell = .done
      then .ok true (e.judged .done) else .ok false e := by
  have inside : e.crtPosition.cell.Inside e.level.width e.level.height := by
    by_contra outside
    simp [DataLevel.verdict, DataLevel.tileAt_outside outside] at valid
  obtain ⟨type, tile, read⟩ := run_crtTileType playable inside
  have notFree : type ≠ TypeOfTile.free.rawValue := by
    intro same
    subst same
    simp [DataLevel.verdict, tile] at valid
  by_cases finish : type = TypeOfTile.finish.rawValue
  · rw [finish] at notFree read tile
    simp [checkIfDone, publish, -bind_pure_comp, EStateM.run_bind, read, DataLevel.verdict, tile, notFree, judged]
  · simp [checkIfDone, EStateM.run_bind, read, finish, DataLevel.verdict, tile, notFree]

theorem run_judge (playable : e.level.Playable) :
    judge.run e = .ok () (e.judged (e.level.verdict e.crtPosition.cell)) := by
  have invalid := run_checkIfInvalid playable
  have done := run_checkIfDone playable
  cases verdict : e.level.verdict e.crtPosition.cell <;>
    simp_all [judge, -bind_pure_comp, EStateM.run_bind, judged]

end EngineAR

def headingIndex : Heading → Int
  | .up => 0
  | .right => 1
  | .down => 2
  | .left => 3

theorem headingIndex_bounds (h : Heading) : 0 ≤ headingIndex h ∧ headingIndex h ≤ 3 := by
  cases h <;> decide

theorem headingIndex_quarterLeft (h : Heading) :
    headingIndex h.quarterLeft =
      if (headingIndex h - 1).tmod 4 = -1 then 3 else (headingIndex h - 1).tmod 4 := by
  cases h <;> decide

theorem headingIndex_quarterRight (h : Heading) : headingIndex h.quarterRight = (headingIndex h + 1).tmod 4 := by
  cases h <;> decide

namespace Motion

def step : Motion → Step
  | moveFront => .forward
  | moveBack => .backward
  | turnLeft => .left
  | turnRight => .right

def command : Motion → PlayerCommand
  | moveFront => .moveFront
  | moveBack => .moveBack
  | turnLeft => .turnLeft
  | turnRight => .turnRight

def text : Motion → String
  | moveFront => "Moving in front"
  | moveBack => "Moving back"
  | turnLeft => "Moving left"
  | turnRight => "Moving right"

def refusal : Motion → String
  | moveFront => "Not moving front, tile is of different type"
  | moveBack => "Not moving back, tile is of different type"
  | turnLeft => "Not turning left, tile is of different type"
  | turnRight => "Not turning right, tile is of different type"

end Motion

namespace EngineAR

structure At (e : EngineAR) (p : Pose) : Prop where
  position : e.crtPosition = ⟨p.cell.row, p.cell.column⟩
  direction : e.crtDXDY = headingIndex p.heading

def ordered (e : EngineAR) (m : Motion) (p : Pose) : EngineAR :=
  { e with
    status := e.status ++ [m.text]
    playerController := e.playerController ++ [m.command]
    crtPosition := ⟨p.cell.row, p.cell.column⟩
    crtDXDY := headingIndex p.heading }

def afterMotion (e : EngineAR) (m : Motion) (p : Pose) : EngineAR :=
  if m.step.moves then (e.ordered m p).judged (e.level.verdict p.cell) else e.ordered m p

def stopped (e : EngineAR) : EngineAR := { e with status := e.status ++ ["Finished..."], valid := false }

def restarted (e : EngineAR) : EngineAR :=
  { e with
    status := e.status ++ ["Starting..."]
    playerController := e.playerController ++ [.reset]
    crtPosition := e.startPosition
    crtDXDY := 0
    valid := true
    done := false }

variable {e : EngineAR} {p : Pose}

theorem run_stopLevel : stopLevel.run e = .ok () e.stopped := rfl

theorem run_resetLevel : resetLevel.run e = .ok () e.restarted := rfl

theorem at?_dxdy (h : Heading) : at? dxdy (headingIndex h) = some ⟨h.ahead.row, h.ahead.column⟩ := by
  cases h <;> rfl

section Stands

variable (active : e.isFinished = false) (stands : e.At p)

include active stands

theorem run_advance_judge (text : String) (order : PlayerCommand) {shift : Int → Int → Int} (target : Cell)
    (row : shift p.cell.row p.heading.ahead.row = target.row)
    (column : shift p.cell.column p.heading.ahead.column = target.column)
    (rowFits : intMin ≤ target.row ∧ target.row ≤ intMax)
    (columnFits : intMin ≤ target.column ∧ target.column ≤ intMax) :
    (advance text order shift).run e = judge.run { e with
      status := e.status ++ [text]
      playerController := e.playerController ++ [order]
      crtPosition := ⟨target.row, target.column⟩ } := by
  obtain ⟨position, direction⟩ := stands
  simp only [advance, EStateM.run_bind, EStateM.run_get, active, setStatus, command, EStateM.run_modify,
    Bool.false_eq_true, if_false, position, direction, run_subscript_of_some (at?_dxdy p.heading), row, column,
    run_checked_of_fits rowFits.1 rowFits.2, run_checked_of_fits columnFits.1 columnFits.2]

theorem trapOf_advance_overflow (text : String) (order : PlayerCommand) {shift : Int → Int → Int} (target : Cell)
    (row : shift p.cell.row p.heading.ahead.row = target.row)
    (column : shift p.cell.column p.heading.ahead.column = target.column)
    (overflow : ¬ ((intMin ≤ target.row ∧ target.row ≤ intMax) ∧ intMin ≤ target.column ∧ target.column ≤ intMax)) :
    trapOf (advance text order shift) e = some .arithmeticOverflow := by
  obtain ⟨position, direction⟩ := stands
  by_cases rowFits : intMin ≤ target.row ∧ target.row ≤ intMax
  · have columnOverflow := fun fits => overflow ⟨rowFits, fits⟩
    simp only [trapOf, advance, EStateM.run_bind, EStateM.run_get, active, setStatus, command, EStateM.run_modify,
      Bool.false_eq_true, if_false, position, direction, run_subscript_of_some (at?_dxdy p.heading), row, column,
      run_checked_of_fits rowFits.1 rowFits.2, run_checked_of_overflow columnOverflow]
  · simp only [trapOf, advance, EStateM.run_bind, EStateM.run_get, active, setStatus, command, EStateM.run_modify,
      Bool.false_eq_true, if_false, position, direction, run_subscript_of_some (at?_dxdy p.heading), row,
      run_checked_of_overflow rowFits]

theorem run_turn {m : Motion} (turn : m.step.moves = false) :
    (performMotion m).run e = .ok () (e.ordered m (p.after m.step)) := by
  obtain ⟨position, direction⟩ := stands
  have bounds := headingIndex_bounds p.heading
  have low := show intMin ≤ -1 by decide
  have high := show 4 ≤ intMax by decide
  cases m with
  | moveFront | moveBack => cases turn
  | turnLeft =>
    by_cases wraps : (headingIndex p.heading - 1).tmod 4 = -1 <;>
      simp [performMotion, turnLeft, EStateM.run_bind, active, setStatus, EngineAR.command, direction,
        run_checked_of_fits (show intMin ≤ headingIndex p.heading - 1 by omega) (by omega), wraps,
        ordered, Motion.step, Pose.after, headingIndex_quarterLeft, position, Motion.text, Motion.command]
  | turnRight =>
    simp [performMotion, turnRight, EStateM.run_bind, active, setStatus, EngineAR.command, direction,
      run_checked_of_fits (show intMin ≤ headingIndex p.heading + 1 by omega) (by omega),
      ordered, Motion.step, Pose.after, headingIndex_quarterRight, position, Motion.text, Motion.command]

end Stands

theorem run_advance (playable : e.level.Playable) (active : e.isFinished = false) (stands : e.At p)
    (inside : p.cell.Inside e.level.width e.level.height) (text : String) (order : PlayerCommand)
    {shift : Int → Int → Int} (target : Cell) (near : ∀ a b, shift a b = a + b ∨ shift a b = a - b)
    (row : shift p.cell.row p.heading.ahead.row = target.row)
    (column : shift p.cell.column p.heading.ahead.column = target.column) :
    (advance text order shift).run e = .ok () (judged { e with
      status := e.status ++ [text]
      playerController := e.playerController ++ [order]
      crtPosition := ⟨target.row, target.column⟩ } (e.level.verdict target)) := by
  have height := playable.height_le
  have width := playable.width_le
  have low := show intMin ≤ -1 by decide
  have rowNear := near p.cell.row p.heading.ahead.row
  have columnNear := near p.cell.column p.heading.ahead.column
  have unit : (-1 ≤ p.heading.ahead.row ∧ p.heading.ahead.row ≤ 1) ∧
      (-1 ≤ p.heading.ahead.column ∧ p.heading.ahead.column ≤ 1) := by
    cases p.heading <;> decide
  obtain ⟨row_nonneg, row_lt, column_nonneg, column_lt⟩ := inside
  have rowFits : intMin ≤ target.row ∧ target.row ≤ intMax := by omega
  have columnFits : intMin ≤ target.column ∧ target.column ≤ intMax := by omega
  rw [run_advance_judge active stands text order target row column rowFits columnFits, run_judge (by exact playable)]
  rfl

theorem run_performMotion (playable : e.level.Playable) (active : e.isFinished = false) (stands : e.At p)
    (inside : p.cell.Inside e.level.width e.level.height) (m : Motion) :
    (performMotion m).run e = .ok () (e.afterMotion m (p.after m.step)) := by
  cases m with
  | moveFront =>
    simp only [performMotion, moveFront]
    rw [run_advance playable active stands inside _ _ (p.after .forward).cell
      (fun _ _ => .inl rfl) rfl rfl]
    simp only [afterMotion, ordered, Motion.step, Step.moves, Pose.after, if_true, ← stands.direction]
    rfl
  | moveBack =>
    simp only [performMotion, moveBack]
    rw [run_advance playable active stands inside _ _ (p.after .backward).cell
      (fun _ _ => .inr rfl) rfl rfl]
    simp only [afterMotion, ordered, Motion.step, Step.moves, Pose.after, if_true, ← stands.direction]
    rfl
  | turnLeft | turnRight => exact run_turn active stands rfl

theorem run_performCall_finished (finished : e.isFinished = true) (c : Call) :
    (performCall c).run e = .ok () e := by
  cases c with
  | plain m => cases m <;> simp [performCall, performMotion, moveFront, moveBack, advance, turnLeft, turnRight,
      EStateM.run_bind, finished]
  | conditional m code => cases m <;> simp [performCall, moveFrontIf, moveBackIf, turnLeftIf, turnRightIf, ifTile,
      EStateM.run_bind, finished]

theorem performCall_conditional (m : Motion) (code : String) :
    performCall (.conditional m code) = ifTile (performMotion m) m.refusal code := by
  cases m <;> rfl

def tileTypeOf (ifTileType : String) : Except Trap Int :=
  match parseInt ifTileType with
  | none => .error .unexpectedNil
  | some n => if n + 3 ≤ intMax then .ok (n + 3) else .error .arithmeticOverflow

theorem tileTypeOf_traps {ifTileType : String} {trap : Trap} (read : tileTypeOf ifTileType = .error trap) :
    trap ≠ .indexOutOfRange := by
  unfold tileTypeOf at read
  cases parsed : parseInt ifTileType with
  | none =>
    simp only [parsed] at read
    cases read
    decide
  | some n =>
    simp only [parsed] at read
    split at read <;> cases read
    decide

theorem run_conditional (playable : e.level.Playable) (active : e.isFinished = false)
    (inside : e.crtPosition.cell.Inside e.level.width e.level.height) (m : Motion) (code : String) :
    (performCall (.conditional m code)).run e = match tileTypeOf code with
      | .error trap => .error trap e
      | .ok type => if e.level.tileAt e.crtPosition.cell = some type then (performMotion m).run e
          else .ok () { e with status := e.status ++ [m.refusal] } := by
  obtain ⟨type, tile, read⟩ := run_crtTileType playable inside
  rw [performCall_conditional]
  simp only [ifTile, EStateM.run_bind, EStateM.run_get, active, Bool.false_eq_true, if_false, read, tileTypeOf, tile]
  cases parsed : parseInt code with
  | none => simp
  | some n =>
    have bounds := parseInt_bounds parsed
    by_cases fits : n + 3 ≤ intMax
    · have checkedCode := run_checked_of_fits (show intMin ≤ n + 3 by omega) fits (s := e)
      by_cases same : type = n + 3 <;> simp [checkedCode, fits, same, setStatus]
    · have overflow := run_checked_of_overflow (s := e) fun both => fits (And.right both)
      simp [overflow, fits]

end EngineAR

end ArRobotCode
