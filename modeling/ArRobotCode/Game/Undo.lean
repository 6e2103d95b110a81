import Mathlib.Data.List.Infix
import ArRobotCode.Game.EnginePath

namespace ArRobotCode

open Swift GridWalk Trapping

def Motion.inverse : Motion → Motion
  | .moveFront => .moveBack
  | .moveBack => .moveFront
  | .turnLeft => .turnRight
  | .turnRight => .turnLeft

theorem Motion.step_inverse (m : Motion) : m.inverse.step = m.step.inverse := by
  cases m <;> rfl

def inverseProgram (program : List Motion) : List Motion := program.reverse.map Motion.inverse

theorem inverseProgram_cons (m : Motion) (program : List Motion) :
    inverseProgram (m :: program) = inverseProgram program ++ [m.inverse] := by
  simp [inverseProgram]

theorem DataLevel.IsFirstStart.goesOn {l : DataLevel} {c : Cell} (first : l.IsFirstStart c) :
    l.verdict c = .goesOn := by
  unfold verdict
  rw [first.1]
  decide

namespace EngineAR

/-- An unfinished engine stands on a tile that neither fails nor completes the level. -/
structure Sound (l : DataLevel) (c : Cell) (e : EngineAR) : Prop where
  safe : e.Safe l c
  footing : e.isFinished = false → l.verdict e.crtPosition.cell = .goesOn

structure Footed (e : EngineAR) (l : DataLevel) (p : Pose) : Prop where
  running : e.Running l p
  footing : l.verdict p.cell = .goesOn

theorem Sound.footed {l : DataLevel} {c : Cell} {e : EngineAR} (sound : e.Sound l c) (active : e.isFinished = false) :
    ∃ p, e.Footed l p := by
  obtain ⟨p, stands, cell⟩ := sound.safe.stands
  obtain ⟨valid, notDone⟩ := isFinished_eq_false.mp active
  have footing := sound.footing active
  have inside := sound.safe.inside active
  rw [← cell] at footing inside
  exact ⟨p, ⟨sound.safe.level, valid, notDone, stands, inside⟩, footing⟩

theorem Sound.restarted {l : DataLevel} {c : Cell} {e : EngineAR} (start : l.verdict c = .goesOn) (safe : e.Safe l c) :
    e.restarted.Sound l c := by
  refine ⟨safe.restarted, fun _ => ?_⟩
  rw [← start]
  exact congrArg l.verdict (congrArg Position.cell safe.start)

section Runs

variable {l : DataLevel} {p : Pose} {e : EngineAR}

theorem Footed.afterMotion (footed : e.Footed l p) {m : Motion}
    (active : (e.afterMotion m (p.after m.step)).isFinished = false) :
    (e.afterMotion m (p.after m.step)).Footed l (p.after m.step) ∧
      (e.afterMotion m (p.after m.step)).eventsBehaviourSubject = e.eventsBehaviourSubject := by
  have level := footed.running.level
  unfold EngineAR.afterMotion at active ⊢
  cases moves : m.step.moves with
  | false =>
    have cell := Pose.after_turn_cell p moves
    rw [if_neg (by decide)]
    refine ⟨⟨footed.running.ordered m ?_, ?_⟩, rfl⟩
    · rw [cell]
      exact footed.running.inside
    · rw [cell]
      exact footed.footing
  | true =>
    rw [if_pos moves] at active
    rw [if_pos rfl]
    rw [level] at active ⊢
    cases verdict : l.verdict (p.after m.step).cell with
    | goesOn => exact ⟨⟨footed.running.ordered m (DataLevel.inside_of_goesOn verdict), verdict⟩, rfl⟩
    | invalid => simp [verdict, judged, EngineAR.isFinished] at active
    | done => simp [verdict, judged, EngineAR.isFinished] at active

theorem Footed.run_performMotion (playable : l.Playable) (footed : e.Footed l p) (m : Motion) :
    (performMotion m).run e = .ok () (e.afterMotion m (p.after m.step)) := by
  have running := footed.running
  obtain ⟨rfl, _, _, stands, inside⟩ := running
  exact EngineAR.run_performMotion playable footed.running.isFinished stands inside m

theorem Footed.motion_onto (playable : l.Playable) (footed : e.Footed l p) {m : Motion} {q : Pose}
    (after : p.after m.step = q) (target : l.verdict q.cell = .goesOn) :
    ∃ e', (performMotion m).run e = .ok () e' ∧ e'.Footed l q ∧
      e'.eventsBehaviourSubject = e.eventsBehaviourSubject := by
  have ran := footed.run_performMotion playable m
  subst after
  have active : (e.afterMotion m (p.after m.step)).isFinished = false := by
    have running := footed.running.isFinished
    unfold EngineAR.afterMotion
    rw [footed.running.level, target]
    split <;> exact running
  obtain ⟨footed', events⟩ := footed.afterMotion active
  exact ⟨_, ran, footed', events⟩

theorem Footed.undone (playable : l.Playable) (program : List Motion) {e : EngineAR} {p : Pose} (footed : e.Footed l p)
    (active : ∀ first rest, program = first ++ rest → (final (runAll performMotion first) e).isFinished = false) :
    ∃ e', (runAll performMotion (program ++ inverseProgram program)).run e = .ok () e' ∧ e'.Footed l p ∧
      e'.eventsBehaviourSubject = e.eventsBehaviourSubject := by
  induction program generalizing e p with
  | nil => exact ⟨e, rfl, footed, rfl⟩
  | cons m program ih =>
    have ran := footed.run_performMotion playable m
    have here := active [m] program rfl
    rw [final_runAll_cons ran] at here
    obtain ⟨footed₁, events₁⟩ := footed.afterMotion here
    have later : ∀ first rest, program = first ++ rest →
        (final (runAll performMotion first) (e.afterMotion m (p.after m.step))).isFinished = false := by
      intro first rest split
      have longer := active (m :: first) rest (by rw [split, List.cons_append])
      rwa [final_runAll_cons ran] at longer
    obtain ⟨e₂, ran₂, footed₂, events₂⟩ := ih footed₁ later
    -- The last motion leads back to the pose that the first one left.
    have back : (p.after m.step).after m.inverse.step = p := by
      rw [Motion.step_inverse]
      exact Pose.after_inverse p m.step
    obtain ⟨e₃, ran₃, footed₃, events₃⟩ := footed₂.motion_onto playable back footed.footing
    refine ⟨e₃, ?_, footed₃, ?_⟩
    · rw [inverseProgram_cons, ← List.append_assoc, List.cons_append, List.cons_append, runAll_cons_ok]
      refine ⟨_, ran, ?_⟩
      rw [runAll_append_ok]
      refine ⟨e₂, ran₂, ?_⟩
      rw [runAll_cons_ok]
      exact ⟨e₃, ran₃, rfl⟩
    · rw [events₃, events₂, events₁]

theorem Sound.afterMotion {c : Cell} (sound : e.Sound l c) (footed : e.Footed l p) (m : Motion) :
    (e.afterMotion m (p.after m.step)).Sound l c := by
  have turn : m.step.moves = false → (p.after m.step).cell.Inside l.width l.height := by
    intro moves
    rw [Pose.after_turn_cell p moves]
    exact footed.running.inside
  refine ⟨sound.safe.afterMotion turn, fun active => ?_⟩
  have footed' := (footed.afterMotion active).1
  rw [footed'.running.cell]
  exact footed'.footing

theorem performMotion_sound (playable : l.Playable) {c : Cell} (m : Motion) (sound : e.Sound l c)
    (active : e.isFinished = false) : ∃ e', (performMotion m).run e = .ok () e' ∧ e'.Sound l c := by
  obtain ⟨p, footed⟩ := sound.footed active
  exact ⟨_, footed.run_performMotion playable m, sound.afterMotion footed m⟩

theorem perform_sound (playable : l.Playable) {c : Cell} (start : l.verdict c = .goesOn) (op : Operation) :
    Triple (Sound l c) (perform op) (fun _ => Sound l c) fun _ e => e.Sound l c ∧ True := by
  intro e sound
  cases op with
  | stopLevel => exact ⟨sound.safe.stopped, by simp [isFinished]⟩
  | resetLevel => exact .restarted start sound.safe
  | call call =>
    cases finished : e.isFinished with
    | true =>
      simp only [perform, run_performCall_finished finished]
      exact sound
    | false =>
      cases call with
      | plain m =>
        obtain ⟨e', ran, sound'⟩ := performMotion_sound playable m sound finished
        simp only [perform, performCall, ran]
        exact sound'
      | conditional m code =>
        have inside := sound.safe.inside finished
        rw [← sound.safe.level] at inside
        simp only [perform, run_conditional (by rw [sound.safe.level]; exact playable) finished inside]
        cases tileTypeOf code with
        | error trap => exact ⟨sound, trivial⟩
        | ok type =>
          by_cases same : e.level.tileAt e.crtPosition.cell = some type
          · obtain ⟨e', ran, sound'⟩ := performMotion_sound playable m sound finished
            simp only [same, if_true, ran]
            exact sound'
          · simp only [same, if_false]
            obtain ⟨⟨level, begins, startInside, facing, stays⟩, footing⟩ := sound
            exact ⟨⟨level, begins, startInside, facing, stays⟩, footing⟩

theorem started_sound {c : Cell} {player : List PlayerCommand} (inside : c.Inside l.width l.height)
    (start : l.verdict c = .goesOn) : (started l player c).Sound l c :=
  ⟨started_safe inside, fun _ => start⟩

end Runs

def Undoes (program : List Motion) (s : EngineAR) : Prop :=
  ∃ e, (runAll performMotion (program ++ inverseProgram program)).run s = .ok () e ∧
    e.crtPosition = s.crtPosition ∧ e.crtDXDY = s.crtDXDY ∧ e.valid = true ∧ e.done = false ∧
    e.eventsBehaviourSubject = s.eventsBehaviourSubject

/-- From an unfinished engine of a game, a program that never finishes it and then the inverse program lead back to
    the position and the direction they started from, and publish nothing. -/
theorem program_undone {l : DataLevel} (playable : l.Playable) (player : List PlayerCommand)
    (hasStart : ∃ t ∈ l.tiles, t.type = TypeOfTile.start.rawValue) :
    ∃ e₀, init l player = .ok e₀ ∧ ∀ before after s,
      (runAll perform (before ++ .resetLevel :: after)).run e₀ = .ok () s → s.isFinished = false →
        ∀ program, (∀ first rest, program = first ++ rest →
          (final (runAll performMotion first) s).isFinished = false) → Undoes program s := by
  obtain ⟨c, inside, built, first⟩ := init_started playable player
  have start := (first hasStart).goesOn
  refine ⟨_, built, ?_⟩
  intro before after s ran active program goesOn
  have reached := (Triple.runAll fun op _ => perform_sound playable start op).of_run_ok
    (started_sound inside start) ran
  obtain ⟨p, footed⟩ := reached.footed active
  obtain ⟨e, back, footed', events⟩ := footed.undone playable program goesOn
  obtain ⟨valid, notDone⟩ := isFinished_eq_false.mp footed'.running.isFinished
  refine ⟨e, back, ?_, ?_, valid, notDone, events⟩
  · rw [footed'.running.stands.position, footed.running.stands.position]
  · rw [footed'.running.stands.direction, footed.running.stands.direction]

def corridor : DataLevel :=
  { uuid := "corridor", width := 3, height := 1,
    tiles := [⟨TypeOfTile.start.rawValue⟩, ⟨TypeOfTile.usedA.rawValue⟩, ⟨TypeOfTile.finish.rawValue⟩] }

theorem corridor_playable : corridor.Playable := ⟨by decide, by decide, by decide, by decide⟩

theorem program_undone_corridor :
    ∃ e₀, init corridor [] = .ok e₀ ∧
      Undoes [.turnRight, .moveFront, .turnLeft] (final (runAll perform [.resetLevel]) e₀) := by
  obtain ⟨e₀, built, undone⟩ := program_undone corridor_playable [] ⟨_, List.mem_cons_self, rfl⟩
  cases built
  refine ⟨_, rfl, undone [] [] _ rfl rfl _ ?_⟩
  intro first rest split
  have initial : first ∈ [Motion.turnRight, .moveFront, .turnLeft].inits := by
    rw [List.mem_inits]
    exact ⟨rest, split.symm⟩
  clear split
  revert first
  decide

end EngineAR

end ArRobotCode
