import ArRobotCode.Library.Refinement
import ArRobotCode.Game.EnginePath

namespace ArRobotCode

open Swift GridWalk Trapping

inductive Outcome where
  | won | lost | stopped
deriving DecidableEq, Repr

/-- A game: where the robot stands, how the game ended if it did, and what robot and screen have been told. -/
structure Play where
  pose : Pose
  outcome : Option Outcome := none
  commands : List PlayerCommand := []
  events : List String := [""]
deriving DecidableEq, Repr

namespace Play

variable (l : DataLevel)

def begun (start : Cell) (commands : List PlayerCommand) : Play := { pose := ⟨start, .up⟩, commands }

def meet (p : Play) : Verdict → Play
  | .goesOn => p
  | .invalid => { p with outcome := some .lost, events := p.events ++ ["invalid"] }
  | .done => { p with outcome := some .won, events := p.events ++ ["done"] }

def walk (p : Play) (m : Motion) : Play :=
  { p with pose := p.pose.after m.step, commands := p.commands ++ [m.command] }

theorem walk_commands (p : Play) (m : Motion) : (p.walk m).commands = p.commands ++ [m.command] := rfl

def move (p : Play) (m : Motion) : Play :=
  if m.step.moves then (p.walk m).meet (l.verdict (p.walk m).pose.cell) else p.walk m

/-- A game that has ended ignores calls; none stands for an If call whose code is no number of a tile. -/
def call (p : Play) (c : Call) : Option Play :=
  if p.outcome.isSome then some p
  else match c with
    | .plain m => some (p.move l m)
    | .conditional m code =>
      match EngineAR.tileTypeOf code with
      | .error _ => none
      | .ok type => some (if l.tileAt p.pose.cell = some type then p.move l m else p)

def stop (p : Play) : Play := { p with outcome := p.outcome.or (some .stopped) }

def restart (start : Cell) (p : Play) : Play :=
  { p with pose := ⟨start, .up⟩, outcome := none, commands := p.commands ++ [.reset] }

def perform (start : Cell) (p : Play) : Operation → Option Play
  | .call c => p.call l c
  | .stopLevel => some p.stop
  | .resetLevel => some (p.restart start)

end Play

/-- The steps of a path that the robot makes: up to the first one that stops it. -/
def made (l : DataLevel) : List (Option Motion × Pose) → List (Option Motion × Pose)
  | [] => []
  | s :: steps => if stops l s then [s] else s :: made l steps

namespace Play

variable {l : DataLevel} {p : Play}

structure Follows (l : DataLevel) (p p' : Play) (steps : List (Option Motion × Pose)) : Prop where
  pose : p'.pose = lastPose p.pose (made l steps)
  commands : p'.commands = p.commands ++ ((made l steps).filterMap (·.1)).map Motion.command
  outcome : p'.outcome = (steps.find? (stops l)).map fun s =>
    if l.tileAt s.2.cell = some TypeOfTile.finish.rawValue then .won else .lost

theorem call_of_decodes {c : Call} (decodes : c.Decodes) (active : p.outcome = none) :
    p.call l c = some ((c.resolve l p.pose.cell).elim p (p.move l)) := by
  unfold call
  rw [active, if_neg (by simp)]
  cases c with
  | plain m => rfl
  | conditional m code =>
    obtain ⟨n, parsed, fits⟩ := decodes
    simp only [EngineAR.tileTypeOf, parsed, fits, if_true, Call.resolve]
    by_cases same : l.tileAt p.pose.cell = some (n + 3) <;> simp [same]

theorem call_of_ended (ended : p.outcome.isSome) (c : Call) : p.call l c = some p := by
  unfold call
  rw [if_pos ended]

theorem call_isSome {c : Call} (p : Play) (decodes : c.Decodes) : ∃ p', p.call l c = some p' := by
  cases outcome : p.outcome with
  | some o => exact ⟨p, call_of_ended (by simp [outcome]) c⟩
  | none => exact ⟨_, call_of_decodes decodes outcome⟩

theorem foldlM_of_ended (ended : p.outcome.isSome) (calls : List Call) :
    calls.foldlM (call l) p = some p := by
  induction calls with
  | nil => rfl
  | cons c calls ih =>
    rw [List.foldlM_cons, call_of_ended ended]
    exact ih

theorem Follows.refused {p' : Play} {steps : List (Option Motion × Pose)} (follows : p.Follows l p' steps) :
    p.Follows l p' ((none, p.pose) :: steps) := by
  obtain ⟨pose, commands, outcome⟩ := follows
  have passes : stops l (none, p.pose) = false := rfl
  refine ⟨?_, ?_, ?_⟩
  · simpa [made, passes, lastPose_cons] using pose
  · simpa [made, passes] using commands
  · simpa only [List.find?_cons, passes] using outcome

theorem Follows.walked {p' : Play} {m : Motion} {steps : List (Option Motion × Pose)}
    (passes : stops l (some m, (p.walk m).pose) = false) (follows : (p.walk m).Follows l p' steps) :
    p.Follows l p' ((some m, (p.walk m).pose) :: steps) := by
  obtain ⟨pose, commands, outcome⟩ := follows
  refine ⟨?_, ?_, ?_⟩
  · simpa [made, passes, lastPose_cons] using pose
  · simpa [made, passes, walk_commands] using commands
  · simpa only [List.find?_cons, passes] using outcome

theorem Follows.halted {m : Motion} (steps : List (Option Motion × Pose)) {verdict : Verdict}
    (halts : stops l (some m, (p.walk m).pose) = true) (stands : l.verdict (p.walk m).pose.cell = verdict)
    (final : verdict ≠ .goesOn) : p.Follows l ((p.walk m).meet verdict) ((some m, (p.walk m).pose) :: steps) := by
  refine ⟨?_, ?_, ?_⟩
  · cases verdict <;> simp [made, halts, lastPose, meet]
  · cases verdict <;> simp [made, halts, meet, walk_commands]
  · simp only [List.find?_cons, halts, Option.map_some]
    cases verdict with
    | goesOn => exact absurd rfl final
    | invalid => rw [if_neg (DataLevel.tileAt_of_invalid stands)]; rfl
    | done => rw [if_pos (DataLevel.tileAt_of_done stands)]; rfl

theorem calls_follow_path (playable : l.Playable) (calls : List Call) (active : p.outcome = none)
    (decodes : ∀ c ∈ calls, c.Decodes) :
    ∃ p', calls.foldlM (call l) p = some p' ∧ p.Follows l p' (path l p.pose calls) := by
  induction calls generalizing p with
  | nil => exact ⟨p, rfl, rfl, by simp [path, made], by simp [path, active]⟩
  | cons c calls ih =>
    have rest : ∀ d ∈ calls, d.Decodes := fun d member => decodes d (List.mem_cons_of_mem c member)
    rw [List.foldlM_cons, call_of_decodes (decodes c List.mem_cons_self) active, path]
    cases resolved : c.resolve l p.pose.cell with
    | none =>
      obtain ⟨p', ran, follows⟩ := ih active rest
      exact ⟨p', ran, follows.refused⟩
    | some m =>
      have going : (p.walk m).outcome = none := active
      cases moves : m.step.moves with
      | false =>
        have turned : p.move l m = p.walk m := by simp [move, moves]
        obtain ⟨p', ran, follows⟩ := ih going rest
        exact ⟨p', by simpa [turned] using ran, follows.walked (stops_turn moves)⟩
      | true =>
        have stop := playable.stops_move (p := (p.walk m).pose) moves
        have moved : p.move l m = (p.walk m).meet (l.verdict (p.walk m).pose.cell) := by simp [move, moves]
        by_cases goesOn : l.verdict (p.walk m).pose.cell = .goesOn
        · have passes : stops l (some m, (p.walk m).pose) = false := by simpa [goesOn] using stop
          obtain ⟨p', ran, follows⟩ := ih going rest
          exact ⟨p', by simpa [moved, goesOn, meet] using ran, follows.walked passes⟩
        · have ended : (p.move l m).outcome.isSome := by
            rw [moved]
            cases verdict : l.verdict (p.walk m).pose.cell with
            | goesOn => exact absurd verdict goesOn
            | invalid | done => rfl
          refine ⟨p.move l m, foldlM_of_ended ended calls, ?_⟩
          rw [moved]
          exact .halted _ (stop.mpr goesOn) rfl goesOn

end Play

namespace EngineAR

structure Shows (l : DataLevel) (start : Cell) (e : EngineAR) (p : Play) : Prop where
  safe : e.Safe l start
  stands : e.At p.pose
  done : e.done = true ↔ p.outcome = some .won
  finished : e.isFinished = p.outcome.isSome
  commands : e.playerController = p.commands
  events : e.eventsBehaviourSubject = p.events

variable {l : DataLevel} {start : Cell} {e : EngineAR} {p : Play}

theorem Shows.running (shows : e.Shows l start p) (active : p.outcome = none) : e.Running l p.pose := by
  have unfinished : e.isFinished = false := by simp [shows.finished, active]
  obtain ⟨valid, notDone⟩ := isFinished_eq_false.mp unfinished
  refine ⟨shows.safe.level, valid, notDone, shows.stands, ?_⟩
  have inside := shows.safe.inside unfinished
  rwa [show e.crtPosition.cell = p.pose.cell by rw [shows.stands.position]; rfl] at inside

theorem Shows.ordered (shows : e.Shows l start p) (m : Motion) (inside : (p.walk m).pose.cell.Inside l.width l.height) :
    (e.ordered m (p.walk m).pose).Shows l start (p.walk m) := by
  obtain ⟨⟨level, home, startInside, _, _⟩, _, done, finished, commands, events⟩ := shows
  refine ⟨⟨level, home, startInside, ⟨_, rfl⟩, fun _ => inside⟩, ⟨rfl, rfl⟩, done, finished, ?_, events⟩
  simp only [EngineAR.ordered, commands, Play.walk]

theorem Shows.afterMotion (shows : e.Shows l start p) (active : p.outcome = none) (m : Motion) :
    (e.afterMotion m (p.walk m).pose).Shows l start (p.move l m) := by
  have running := shows.running active
  have safe := @Safe.afterMotion l start e shows.safe m (p.walk m).pose fun turn => by
    rw [Play.walk, Pose.after_turn_cell _ turn]
    exact running.inside
  have commands := shows.commands
  have events := shows.events
  have valid := running.valid
  have notDone := running.notDone
  unfold EngineAR.afterMotion at safe ⊢
  unfold Play.move
  rw [running.level] at safe ⊢
  split at safe <;> rename_i moves
  · rw [if_pos moves, if_pos moves]
    cases verdict : l.verdict (p.walk m).pose.cell with
    | goesOn =>
      rw [verdict] at safe
      exact shows.ordered m (DataLevel.inside_of_goesOn verdict)
    | invalid =>
      rw [verdict] at safe
      refine ⟨safe, ⟨rfl, rfl⟩, by simp [judged, EngineAR.ordered, notDone, Play.meet], rfl, ?_, ?_⟩
      · simp only [judged, EngineAR.ordered, commands, Play.meet, Play.walk]
      · simp only [judged, EngineAR.ordered, events, Play.meet, Play.walk]
    | done =>
      rw [verdict] at safe
      refine ⟨safe, ⟨rfl, rfl⟩, by simp [judged, Play.meet], by simp [isFinished, judged, Play.meet], ?_, ?_⟩
      · simp only [judged, EngineAR.ordered, commands, Play.meet, Play.walk]
      · simp only [judged, EngineAR.ordered, events, Play.meet, Play.walk]
  · rw [if_neg moves, if_neg moves]
    apply shows.ordered
    rw [Play.walk, Pose.after_turn_cell _ (by simpa using moves)]
    exact running.inside

theorem Shows.stopped (shows : e.Shows l start p) : e.stopped.Shows l start p.stop := by
  obtain ⟨safe, ⟨position, direction⟩, done, finished, commands, events⟩ := shows
  refine ⟨safe.stopped, ⟨position, direction⟩, ?_, ?_, commands, events⟩
  · have same : e.stopped.done = e.done := rfl
    rw [same, done]
    cases outcome : p.outcome <;> simp [Play.stop, outcome]
  · cases outcome : p.outcome <;> simp [Play.stop, outcome, EngineAR.stopped, isFinished]

theorem Shows.restarted (shows : e.Shows l start p) : e.restarted.Shows l start (p.restart start) := by
  refine ⟨shows.safe.restarted, ⟨shows.safe.start, rfl⟩, ?_, rfl, ?_, shows.events⟩
  · simp [EngineAR.restarted, Play.restart]
  · simp only [EngineAR.restarted, shows.commands, Play.restart]

theorem Shows.setStatus (shows : e.Shows l start p) (status : List String) :
    ({ e with status } : EngineAR).Shows l start p := by
  obtain ⟨⟨level, home, startInside, facing, stays⟩, ⟨position, direction⟩, done, finished, commands, events⟩ := shows
  exact ⟨⟨level, home, startInside, facing, stays⟩, ⟨position, direction⟩, done, finished, commands, events⟩

theorem performCall_shows (playable : l.Playable) (shows : e.Shows l start p) (c : Call) :
    Agrees (Shows l start) (performCall c) e (p.call l c) := by
  unfold Play.call
  cases outcome : p.outcome with
  | some o =>
    have finished : e.isFinished = true := by simp [shows.finished, outcome]
    exact ⟨e, run_performCall_finished finished c, shows⟩
  | none =>
    have running := shows.running outcome
    have cell := running.cell
    have playable' : e.level.Playable := by rw [running.level]; exact playable
    have inside : p.pose.cell.Inside e.level.width e.level.height := by rw [running.level]; exact running.inside
    have ran := run_performMotion playable' running.isFinished running.stands inside
    cases c with
    | plain m => exact ⟨_, ran m, shows.afterMotion outcome m⟩
    | conditional m code =>
      have chosen := run_conditional playable' running.isFinished (by rw [cell]; exact inside) m code
      simp only [Option.isSome_none, Bool.false_eq_true, if_false]
      cases read : tileTypeOf code with
      | error trap =>
        rw [read] at chosen
        simp only [Agrees, trapOf, chosen]
        exact Option.some_ne_none trap
      | ok type =>
        have seen : e.level.tileAt e.crtPosition.cell = l.tileAt p.pose.cell := by rw [cell, running.level]
        rw [read] at chosen
        dsimp only at chosen
        rw [seen] at chosen
        by_cases same : l.tileAt p.pose.cell = some type
        · simp only [same, if_true] at chosen ⊢
          exact ⟨_, chosen.trans (ran m), shows.afterMotion outcome m⟩
        · simp only [same, if_false] at chosen ⊢
          exact ⟨_, chosen, shows.setStatus _⟩

theorem simulates_play (playable : l.Playable) (start : Cell) :
    Simulates (Shows l start) Eq perform (Play.perform l start) := by
  intro e p op op' shows same
  subst same
  cases op with
  | call c => exact performCall_shows playable shows c
  | stopLevel => exact ⟨_, run_stopLevel, shows.stopped⟩
  | resetLevel => exact ⟨_, run_resetLevel, shows.restarted⟩

theorem started_shows {player : List PlayerCommand} (inside : start.Inside l.width l.height) :
    (started l player start).Shows l start (.begun start player) :=
  ⟨started_safe inside, ⟨rfl, rfl⟩, by simp [started, Play.begun], rfl, rfl, rfl⟩

/-- Whatever operations follow its creation, the engine shows the game that they make up: its commands, events, position
    and outcome. It traps where the game meets a code that is no number of a tile. -/
theorem engine_refines_play (playable : l.Playable) (player : List PlayerCommand) :
    ∃ start e₀, ((∃ t ∈ l.tiles, t.type = TypeOfTile.start.rawValue) → l.IsFirstStart start) ∧
      init l player = .ok e₀ ∧ ∀ ops : List Operation,
        Agrees (Shows l start) (runAll perform ops) e₀ (ops.foldlM (Play.perform l start) (.begun start player)) := by
  obtain ⟨start, inside, built, first⟩ := init_started playable player
  refine ⟨start, _, first, built, fun ops => ?_⟩
  have same : List.Forall₂ Eq ops ops := List.forall₂_same.mpr fun _ _ => rfl
  exact (simulates_play playable start).runAll (started_shows inside) same

theorem shortLevel_start {start : Cell} (first : shortLevel.IsFirstStart start) : start = ⟨0, 0⟩ := by
  have tile := first.1
  obtain ⟨row, column⟩ := start
  have inside : (⟨row, column⟩ : Cell).Inside shortLevel.width shortLevel.height := by
    by_contra outside
    simp [DataLevel.tileAt_outside outside] at tile
  simp only [Cell.Inside, shortLevel] at inside
  have onRow : row = 0 := by omega
  have onColumn : column = 0 ∨ column = 1 := by omega
  subst onRow
  rcases onColumn with rfl | rfl
  · rfl
  · exact absurd tile (by decide)

theorem engine_refines_play_short :
    ∃ e₀, init shortLevel [] = .ok e₀ ∧ ∃ e, (runAll perform [.call (.plain .turnRight), .call (.plain .moveFront),
      .stopLevel, .call (.plain .moveBack)]).run e₀ = .ok () e ∧
      e.Shows shortLevel ⟨0, 0⟩ ⟨⟨⟨0, 1⟩, .right⟩, some .won, [.turnRight, .moveFront], ["", "done"]⟩ := by
  obtain ⟨start, e₀, first, built, agrees⟩ := engine_refines_play shortLevel_playable []
  obtain rfl := shortLevel_start (first ⟨_, List.mem_cons_self, rfl⟩)
  exact ⟨e₀, built, agrees [.call (.plain .turnRight), .call (.plain .moveFront), .stopLevel, .call (.plain .moveBack)]⟩

end EngineAR

end ArRobotCode
