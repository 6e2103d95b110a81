import ArRobotCode.Game.EngineSafety

namespace ArRobotCode

open Swift GridWalk Trapping

/-- What a call comes to on a cell: an If call is its plain call on a tile of type code + 3, else nothing. -/
def Call.resolve (l : DataLevel) (c : Cell) : Call → Option Motion
  | .plain m => some m
  | .conditional m code =>
    match parseInt code with
    | some n => if l.tileAt c = some (n + 3) then some m else none
    | none => none

def Call.Decodes : Call → Prop
  | .plain _ => True
  | .conditional _ code => ∃ n, parseInt code = some n ∧ n + 3 ≤ intMax

/-- The motions and poses of the calls on the unbounded grid, whatever tiles the motions lead to. -/
def path (l : DataLevel) : Pose → List Call → List (Option Motion × Pose)
  | _, [] => []
  | p, c :: cs =>
    match c.resolve l p.cell with
    | some m => (some m, p.after m.step) :: path l (p.after m.step) cs
    | none => (none, p) :: path l p cs

def lastPose (p : Pose) (steps : List (Option Motion × Pose)) : Pose :=
  (steps.getLast?.map (·.2)).getD p

def stops (l : DataLevel) (s : Option Motion × Pose) : Bool :=
  s.1.any (·.step.moves) && (!decide (s.2.cell.Inside l.width l.height) ||
    l.tileAt s.2.cell == some TypeOfTile.free.rawValue || l.tileAt s.2.cell == some TypeOfTile.finish.rawValue)

def EngineAR.Follows (e : EngineAR) (l : DataLevel) (p : Pose) (steps : List (Option Motion × Pose)) : Prop :=
  match steps.find? (stops l) with
  | none => e.valid = true ∧ e.done = false ∧ e.At (lastPose p steps)
  | some s => e.At s.2 ∧
      if l.tileAt s.2.cell = some TypeOfTile.finish.rawValue then e.valid = true ∧ e.done = true
      else e.valid = false ∧ e.done = false

theorem lastPose_cons (p q : Pose) (m : Option Motion) (steps : List (Option Motion × Pose)) :
    lastPose p ((m, q) :: steps) = lastPose q steps := by
  cases steps with
  | nil => rfl
  | cons s steps => simp [lastPose, List.getLast?_cons]

theorem DataLevel.Playable.stops_move {l : DataLevel} (playable : l.Playable) {m : Motion} {p : Pose}
    (moves : m.step.moves = true) : stops l (some m, p) = true ↔ l.verdict p.cell ≠ .goesOn := by
  by_cases inside : p.cell.Inside l.width l.height
  · obtain ⟨tile, _, type⟩ := playable.tileAt_inside inside
    by_cases free : tile.type = TypeOfTile.free.rawValue
    · simp [stops, moves, inside, type, verdict, free]
    · by_cases finish : tile.type = TypeOfTile.finish.rawValue
      · rw [finish] at free type
        simp [stops, moves, inside, type, verdict, free]
      · simp [stops, moves, inside, type, verdict, free, finish]
  · simp [stops, moves, inside, verdict, tileAt_outside inside]

theorem stops_turn {l : DataLevel} {m : Motion} {p : Pose} (turn : m.step.moves = false) :
    stops l (some m, p) = false := by
  simp [stops, turn]

theorem DataLevel.tileAt_of_done {l : DataLevel} {c : Cell} (done : l.verdict c = .done) :
    l.tileAt c = some TypeOfTile.finish.rawValue := by
  cases tile : l.tileAt c with
  | none => simp [verdict, tile] at done
  | some type =>
    by_cases finish : type = TypeOfTile.finish.rawValue
    · rw [finish]
    · by_cases free : type = TypeOfTile.free.rawValue <;> simp [verdict, tile, finish, free] at done

theorem DataLevel.tileAt_of_invalid {l : DataLevel} {c : Cell} (invalid : l.verdict c = .invalid) :
    l.tileAt c ≠ some TypeOfTile.finish.rawValue := by
  intro finish
  have differ : TypeOfTile.finish.rawValue ≠ TypeOfTile.free.rawValue := by decide
  simp [verdict, finish, differ] at invalid

namespace EngineAR

structure Running (e : EngineAR) (l : DataLevel) (p : Pose) : Prop where
  level : e.level = l
  valid : e.valid = true
  notDone : e.done = false
  stands : e.At p
  inside : p.cell.Inside l.width l.height

theorem Running.isFinished {e : EngineAR} {l : DataLevel} {p : Pose} (running : e.Running l p) :
    e.isFinished = false := by
  simp [EngineAR.isFinished, running.valid, running.notDone]

theorem Running.cell {e : EngineAR} {l : DataLevel} {p : Pose} (running : e.Running l p) :
    e.crtPosition.cell = p.cell := by
  rw [running.stands.position]
  rfl

variable {l : DataLevel}

theorem run_calls_finished {e : EngineAR} (finished : e.isFinished = true) (calls : List Call) :
    (runAll performCall calls).run e = .ok () e := by
  induction calls with
  | nil => rfl
  | cons c calls ih =>
    rw [runAll_cons, run_performCall_finished finished]
    exact ih

theorem Running.run_performCall (playable : l.Playable) {e : EngineAR} {p : Pose} (running : e.Running l p)
    {c : Call} (decodes : c.Decodes) :
    (∃ m, c.resolve l p.cell = some m ∧ (performCall c).run e = .ok () (e.afterMotion m (p.after m.step))) ∨
      (c.resolve l p.cell = none ∧ ∃ e', (performCall c).run e = .ok () e' ∧ e'.Running l p) := by
  have active := running.isFinished
  have cell := running.cell
  obtain ⟨rfl, valid, notDone, stands, inside⟩ := running
  cases c with
  | plain m => exact .inl ⟨m, rfl, run_performMotion playable active stands inside m⟩
  | conditional m code =>
    obtain ⟨n, parsed, fits⟩ := decodes
    have ran := run_conditional playable active (by rw [cell]; exact inside) m code
    simp only [tileTypeOf, parsed, fits, if_true, cell] at ran
    by_cases same : e.level.tileAt p.cell = some (n + 3)
    · refine .inl ⟨m, by simp [Call.resolve, parsed, same], ?_⟩
      rw [ran, if_pos same, run_performMotion playable active stands inside m]
    · rw [if_neg same] at ran
      refine .inr ⟨by simp [Call.resolve, parsed, same], _, ran, ?_⟩
      exact ⟨rfl, valid, notDone, ⟨stands.position, stands.direction⟩, inside⟩

theorem Running.ordered {e : EngineAR} {p q : Pose} (running : e.Running l p) (m : Motion)
    (inside : q.cell.Inside l.width l.height) : (e.ordered m q).Running l q :=
  ⟨running.level, running.valid, running.notDone, ⟨rfl, rfl⟩, inside⟩

theorem Running.run_calls (playable : l.Playable) (calls : List Call) {e : EngineAR} {p : Pose}
    (running : e.Running l p) (decodes : ∀ c ∈ calls, c.Decodes) :
    ∃ e', (runAll performCall calls).run e = .ok () e' ∧ e'.Follows l p (path l p calls) := by
  induction calls generalizing e p with
  | nil => exact ⟨e, rfl, running.valid, running.notDone, running.stands⟩
  | cons c calls ih =>
    have rest : ∀ d ∈ calls, d.Decodes := fun d member => decodes d (List.mem_cons_of_mem c member)
    rw [runAll_cons]
    obtain ⟨m, resolved, ran⟩ | ⟨refused, e', ran, running'⟩ :=
      running.run_performCall playable (decodes c List.mem_cons_self)
    · simp only [ran, path, resolved]
      cases moves : m.step.moves with
      | false =>
        -- A turn stays on its cell and stops nothing.
        have stays : (p.after m.step).cell.Inside l.width l.height := by
          rw [Pose.after_turn_cell p moves]
          exact running.inside
        obtain ⟨last, ranRest, follows⟩ := ih (running.ordered m stays) rest
        refine ⟨last, by simpa [afterMotion, moves] using ranRest, ?_⟩
        simpa only [Follows, List.find?_cons, stops_turn moves, lastPose_cons] using follows
      | true =>
        have stop := playable.stops_move (p := p.after m.step) moves
        simp only [afterMotion, moves, if_true, running.level]
        -- A move goes on, or it is the first stop and the calls after it are skipped.
        cases verdict : l.verdict (p.after m.step).cell with
        | goesOn =>
          obtain ⟨last, ranRest, follows⟩ := ih (running.ordered m (DataLevel.inside_of_goesOn verdict)) rest
          have passes : stops l (some m, p.after m.step) = false := by simp [verdict] at stop; exact stop
          refine ⟨last, ranRest, ?_⟩
          simpa only [Follows, List.find?_cons, passes, lastPose_cons] using follows
        | invalid =>
          have halts : stops l (some m, p.after m.step) = true := stop.mpr (by simp [verdict])
          refine ⟨_, run_calls_finished (by simp [judged, EngineAR.isFinished]) calls, ?_⟩
          simp only [Follows, List.find?_cons, halts, DataLevel.tileAt_of_invalid verdict, if_false]
          exact ⟨⟨rfl, rfl⟩, rfl, running.notDone⟩
        | done =>
          have halts : stops l (some m, p.after m.step) = true := stop.mpr (by simp [verdict])
          refine ⟨_, run_calls_finished (by simp [judged, EngineAR.isFinished]) calls, ?_⟩
          simp only [Follows, List.find?_cons, halts, DataLevel.tileAt_of_done verdict, if_true]
          exact ⟨⟨rfl, rfl⟩, running.valid, rfl⟩
    · obtain ⟨last, ranRest, follows⟩ := ih running' rest
      have passes : stops l (none, p) = false := rfl
      refine ⟨last, by simpa only [ran] using ranRest, ?_⟩
      simpa only [path, refused, Follows, List.find?_cons, passes, lastPose_cons] using follows

theorem run_calls_perform (calls : List Call) (e : EngineAR) :
    (runAll perform (calls.map .call)).run e = (runAll performCall calls).run e := by
  induction calls generalizing e with
  | nil => rfl
  | cons c calls ih =>
    simp only [List.map_cons, runAll_cons, perform, ih]

theorem Safe.restarted_running {e : EngineAR} {c : Cell} (safe : e.Safe l c) : e.restarted.Running l ⟨c, .up⟩ :=
  ⟨safe.level, rfl, rfl, ⟨safe.start, rfl⟩, safe.startInside⟩

/-- After a reset the engine runs the path of its calls from the first Start tile, and halts at its first stop. -/
theorem engine_follows_path (playable : l.Playable) (player : List PlayerCommand)
    (hasStart : ∃ t ∈ l.tiles, t.type = TypeOfTile.start.rawValue) (before : List Operation) (calls : List Call)
    (decodes : ∀ c ∈ calls, c.Decodes) :
    ∃ start e₀, l.IsFirstStart start ∧ init l player = .ok e₀ ∧
      ∀ e₁, (runAll perform before).run e₀ = .ok () e₁ →
        ∃ e, (runAll perform (.resetLevel :: calls.map .call)).run e₁ = .ok () e ∧
          e.Follows l ⟨start, .up⟩ (path l ⟨start, .up⟩ calls) := by
  obtain ⟨c, inside, built, first⟩ := init_started playable player
  refine ⟨c, _, first hasStart, built, fun e₁ ran => ?_⟩
  have safe := (run_safe playable c before).of_run_ok (started_safe inside) ran
  obtain ⟨e, ranCalls, follows⟩ := safe.restarted_running.run_calls playable calls decodes
  refine ⟨e, ?_, follows⟩
  rw [runAll_cons_ok]
  exact ⟨_, run_resetLevel, by rw [run_calls_perform, ranCalls]⟩

theorem engine_follows_path_short :
    ∃ start e₀, shortLevel.IsFirstStart start ∧ init shortLevel [] = .ok e₀ ∧
      ∃ e, (runAll perform [.resetLevel, .call (.plain .turnRight), .call (.plain .moveFront),
          .call (.conditional .moveFront "0")]).run e₀ = .ok () e ∧
        e.Follows shortLevel ⟨start, .up⟩
          (path shortLevel ⟨start, .up⟩ [.plain .turnRight, .plain .moveFront, .conditional .moveFront "0"]) := by
  obtain ⟨start, e₀, first, built, follows⟩ := engine_follows_path shortLevel_playable []
    ⟨_, List.mem_cons_self, rfl⟩ [] [.plain .turnRight, .plain .moveFront, .conditional .moveFront "0"]
    (by simp [Call.Decodes, show parseInt "0" = some 0 by decide, intMax])
  exact ⟨start, e₀, first, built, follows e₀ rfl⟩

end EngineAR

end ArRobotCode
