import ArRobotCode.Game.EngineSafety

namespace ArRobotCode

open Swift GridWalk Trapping

def Verdict.events : Verdict → List String
  | .goesOn => []
  | .invalid => ["invalid"]
  | .done => ["done"]

def Call.motion : Call → Motion
  | .plain m => m
  | .conditional m _ => m

namespace EngineAR

/-- What a call that comes to a verdict does to an unfinished engine. -/
structure Judged (e e' : EngineAR) (call : Call) (verdict : Verdict) : Prop where
  events : e'.eventsBehaviourSubject = e.eventsBehaviourSubject ++ verdict.events
  valid : e'.valid = true ↔ verdict ≠ .invalid
  done : e'.done = true ↔ verdict = .done
  moves : verdict ≠ .goesOn → call.motion.step.moves = true

theorem Judged.stays_active {e e' : EngineAR} {call : Call} (judged : e.Judged e' call .goesOn) :
    e'.isFinished = false := by
  have undone : e'.done = false := by
    cases done : e'.done with
    | false => rfl
    | true => cases judged.done.mp done
  exact isFinished_eq_false.mpr ⟨judged.valid.mpr (by decide), undone⟩

/-- Nothing is published, ordered or moved, and an engine that has failed stays so. -/
structure Frozen (e e' : EngineAR) : Prop where
  events : e'.eventsBehaviourSubject = e.eventsBehaviourSubject
  player : e'.playerController = e.playerController
  position : e'.crtPosition = e.crtPosition
  direction : e'.crtDXDY = e.crtDXDY
  done : e'.done = e.done
  valid : e'.valid = true → e.valid = true

theorem Frozen.refl (e : EngineAR) : e.Frozen e := ⟨rfl, rfl, rfl, rfl, rfl, id⟩

theorem Frozen.isFinished {e e' : EngineAR} (frozen : e.Frozen e') (finished : e.isFinished = true) :
    e'.isFinished = true := by
  have valid := frozen.valid
  simp only [EngineAR.isFinished, Bool.or_eq_true, Bool.not_eq_true', frozen.done] at finished ⊢
  rcases finished with failed | done
  · left
    cases still : e'.valid with
    | false => rfl
    | true =>
      rw [valid still] at failed
      cases failed
  · right
    exact done

/-- A move of the operations finds the engine valid and leaves it invalid. -/
def FailsByMove (e : EngineAR) (ops : List Operation) : Prop :=
  ∃ earlier call later before after, ops = earlier ++ .call call :: later ∧ call.motion.step.moves = true ∧
    (runAll perform earlier).run e = .ok () before ∧ before.valid = true ∧
    (performCall call).run before = .ok () after ∧ after.valid = false

section Finished

variable {e : EngineAR}

theorem perform_finished {op : Operation} (noReset : op ≠ .resetLevel) :
    Triple (fun s => s.isFinished = true ∧ e.Frozen s) (perform op) (fun _ s => s.isFinished = true ∧ e.Frozen s)
      fun _ s => (s.isFinished = true ∧ e.Frozen s) ∧ False := by
  intro s finished
  cases op with
  | call call =>
    simp only [perform, run_performCall_finished finished.1]
    exact finished
  | stopLevel =>
    obtain ⟨_, events, player, position, direction, done, _⟩ := finished
    exact ⟨by simp [isFinished], events, player, position, direction, done, by simp⟩
  | resetLevel => exact absurd rfl noReset

theorem run_finished {ops : List Operation} (noReset : .resetLevel ∉ ops) (finished : e.isFinished = true) :
    e.Frozen (final (runAll perform ops) e) ∧ trapOf (runAll perform ops) e = none := by
  have each : ∀ op ∈ ops, op ≠ .resetLevel := by
    intro op member reset
    subst reset
    exact noReset member
  have outcome := (Triple.runAll fun op member => perform_finished (e := e) (each op member)).final
    ⟨finished, Frozen.refl e⟩
  refine ⟨outcome.1.2, ?_⟩
  cases trapped : trapOf (runAll perform ops) e with
  | none => rfl
  | some trap => exact (outcome.2 trap trapped).elim

theorem not_failsByMove_of_finished {ops : List Operation} (noReset : .resetLevel ∉ ops)
    (finished : e.isFinished = true) : ¬ e.FailsByMove ops := by
  intro fails
  obtain ⟨earlier, call, later, before, after, rfl, _, ran, valid, failed, invalid⟩ := fails
  have noEarlier : .resetLevel ∉ earlier := fun member => noReset (List.mem_append_left _ member)
  have frozen := (run_finished noEarlier finished).1
  rw [final_of_run_ok ran] at frozen
  rw [run_performCall_finished (frozen.isFinished finished)] at failed
  cases failed
  rw [valid] at invalid
  cases invalid

end Finished

section Runs

variable {l : DataLevel} {c : Cell} {e : EngineAR}

theorem judged_ordered (active : e.isFinished = false) (m : Motion) (p : Pose) (verdict : Verdict)
    (moves : verdict ≠ .goesOn → m.step.moves = true) :
    e.Judged ((e.ordered m p).judged verdict) (.plain m) verdict := by
  obtain ⟨valid, notDone⟩ := isFinished_eq_false.mp active
  cases verdict with
  | goesOn =>
    refine ⟨(List.append_nil _).symm, ?_, ?_, moves⟩
    · simp [judged, ordered, valid]
    · simp [judged, ordered, notDone]
  | invalid => exact ⟨rfl, by simp [judged], by simp [judged, ordered, notDone], moves⟩
  | done => exact ⟨rfl, by simp [judged, ordered, valid], by simp [judged], moves⟩

theorem judged_afterMotion (active : e.isFinished = false) (m : Motion) (p : Pose) :
    ∃ verdict, e.Judged (e.afterMotion m p) (.plain m) verdict := by
  unfold EngineAR.afterMotion
  cases moves : m.step.moves with
  | false => exact ⟨.goesOn, judged_ordered active m p .goesOn (by simp)⟩
  | true => exact ⟨_, judged_ordered active m p _ fun _ => moves⟩

theorem performMotion_judged (playable : l.Playable) (safe : e.Safe l c) (active : e.isFinished = false) (m : Motion) :
    ∃ e' verdict, (performMotion m).run e = .ok () e' ∧ e.Judged e' (.plain m) verdict ∧ e'.Safe l c := by
  obtain ⟨p, stands, cell⟩ := safe.stands
  have inside := safe.inside active
  have ran := run_performMotion (by rw [safe.level]; exact playable) active stands
    (by rw [safe.level, cell]; exact inside) m
  obtain ⟨e', ran', safe'⟩ := performMotion_safe playable c m safe active
  obtain ⟨verdict, judged⟩ := judged_afterMotion active m (p.after m.step)
  rw [ran] at ran'
  cases ran'
  exact ⟨_, verdict, ran, judged, safe'⟩

theorem performCall_judged (playable : l.Playable) (safe : e.Safe l c) (active : e.isFinished = false) (call : Call) :
    (∃ trap, (performCall call).run e = .error trap e) ∨
      ∃ e' verdict, (performCall call).run e = .ok () e' ∧ e.Judged e' call verdict ∧ e'.Safe l c := by
  cases call with
  | plain m => exact .inr (performMotion_judged playable safe active m)
  | conditional m code =>
    have inside := safe.inside active
    rw [← safe.level] at inside
    rw [run_conditional (by rw [safe.level]; exact playable) active inside]
    cases tileTypeOf code with
    | error trap => exact .inl ⟨trap, rfl⟩
    | ok type =>
      right
      by_cases same : e.level.tileAt e.crtPosition.cell = some type
      · obtain ⟨e', verdict, ran, judged, safe'⟩ := performMotion_judged playable safe active m
        obtain ⟨events, valid, done, moves⟩ := judged
        exact ⟨e', verdict, by simpa only [same, if_true] using ran, ⟨events, valid, done, moves⟩, safe'⟩
      · obtain ⟨valid, notDone⟩ := isFinished_eq_false.mp active
        obtain ⟨level, start, startInside, facing, stays⟩ := safe
        simp only [same, if_false]
        exact ⟨_, .goesOn, rfl, ⟨(List.append_nil _).symm, by simp [valid], by simp [notDone], by simp⟩,
          level, start, startInside, facing, stays⟩

/-- At most one verdict is published, once; it is `done` when the engine is done and `invalid` when a move failed. -/
structure OneVerdict (e : EngineAR) (ops : List Operation) (verdict : Verdict) : Prop where
  events : (final (runAll perform ops) e).eventsBehaviourSubject = e.eventsBehaviourSubject ++ verdict.events
  done : verdict = .done ↔ (final (runAll perform ops) e).done = true
  invalid : verdict = .invalid ↔ e.FailsByMove ops

theorem failsByMove_cons_iff {op : Operation} {ops : List Operation} {e' : EngineAR}
    (first : (perform op).run e = .ok () e') :
    e.FailsByMove (op :: ops) ↔
      (∃ call, op = .call call ∧ call.motion.step.moves = true ∧ e.valid = true ∧ e'.valid = false) ∨
        e'.FailsByMove ops := by
  constructor
  · intro fails
    obtain ⟨earlier, call, later, before, after, split, moves, ran, valid, failed, invalid⟩ := fails
    cases earlier with
    | nil =>
      cases split
      cases ran
      have same : (performCall call).run e = .ok () e' := first
      rw [same] at failed
      cases failed
      exact .inl ⟨call, rfl, moves, valid, invalid⟩
    | cons _ earlier =>
      cases split
      obtain ⟨middle, ranFirst, ranRest⟩ := runAll_cons_ok.mp ran
      rw [first] at ranFirst
      cases ranFirst
      exact .inr ⟨earlier, call, later, before, after, rfl, moves, ranRest, valid, failed, invalid⟩
  · intro fails
    rcases fails with ⟨call, rfl, moves, valid, invalid⟩ | fails
    · exact ⟨[], call, ops, e, e', rfl, moves, rfl, valid, first, invalid⟩
    · obtain ⟨earlier, call, later, before, after, rfl, moves, ranEarlier, rest⟩ := fails
      refine ⟨op :: earlier, call, later, before, after, rfl, moves, ?_, rest⟩
      rw [runAll_cons_ok]
      exact ⟨e', first, ranEarlier⟩

theorem not_failsByMove_of_trap {op : Operation} {ops : List Operation} {trap : Trap} {e' : EngineAR}
    (first : (perform op).run e = .error trap e') : ¬ e.FailsByMove (op :: ops) := by
  intro fails
  obtain ⟨earlier, call, later, before, after, split, _, ran, _, failed, _⟩ := fails
  cases earlier with
  | nil =>
    cases split
    cases ran
    have trapped : (performCall call).run e = .error trap e' := first
    rw [trapped] at failed
    cases failed
  | cons _ earlier =>
    cases split
    obtain ⟨middle, ranFirst, _⟩ := runAll_cons_ok.mp ran
    rw [first] at ranFirst
    cases ranFirst

theorem OneVerdict.of_finished {call : Call} {ops : List Operation} {e' : EngineAR} {verdict : Verdict}
    (ran : (performCall call).run e = .ok () e') (judged : e.Judged e' call verdict) (final : verdict ≠ .goesOn)
    (active : e.isFinished = false) (noReset : .resetLevel ∉ ops) : e.OneVerdict (.call call :: ops) verdict := by
  obtain ⟨events, valid, done, moves⟩ := judged
  have finished : e'.isFinished = true := by
    unfold isFinished
    cases verdict with
    | goesOn => exact absurd rfl final
    | invalid => simp only [ne_eq, not_true, iff_false, Bool.not_eq_true] at valid; simp [valid]
    | done => simp only [iff_true] at done; simp [done]
  have first : (perform (.call call)).run e = .ok () e' := ran
  have frozen := (run_finished noReset finished).1
  have wasValid : e.valid = true := (isFinished_eq_false.mp active).1
  refine ⟨?_, ?_, ?_⟩
  · rw [final_runAll_cons first, frozen.events, events]
  · rw [final_runAll_cons first, frozen.done, done]
  · rw [failsByMove_cons_iff first]
    constructor
    · intro lost
      have invalid : e'.valid = false := by simpa [lost] using valid
      exact .inl ⟨call, rfl, moves final, wasValid, invalid⟩
    · intro fails
      rcases fails with ⟨_, _, _, _, invalid⟩ | fails
      · by_contra kept
        rw [valid.mpr kept] at invalid
        cases invalid
      · exact (not_failsByMove_of_finished noReset finished fails).elim

theorem OneVerdict.of_stop {ops : List Operation} (active : e.isFinished = false) (noReset : .resetLevel ∉ ops) :
    e.OneVerdict (.stopLevel :: ops) .goesOn := by
  have stop : (perform .stopLevel).run e = .ok () e.stopped := rfl
  have finished : e.stopped.isFinished = true := by simp [stopped, isFinished]
  have frozen := (run_finished noReset finished).1
  refine ⟨?_, ?_, ?_⟩
  · rw [final_runAll_cons stop, frozen.events]
    exact (List.append_nil _).symm
  · rw [final_runAll_cons stop, frozen.done]
    simp [stopped, (isFinished_eq_false.mp active).2]
  · rw [failsByMove_cons_iff stop]
    simp [not_failsByMove_of_finished noReset finished]

theorem OneVerdict.of_trap {op : Operation} {ops : List Operation} {trap : Trap} (active : e.isFinished = false)
    (first : (perform op).run e = .error trap e) : e.OneVerdict (op :: ops) .goesOn := by
  have stays : final (runAll perform (op :: ops)) e = e := by simp only [final, runAll_cons, first]
  refine ⟨?_, ?_, ?_⟩
  · rw [stays]
    exact (List.append_nil _).symm
  · simp [stays, (isFinished_eq_false.mp active).2]
  · simp [not_failsByMove_of_trap first]

theorem OneVerdict.of_goesOn {call : Call} {ops : List Operation} {e' : EngineAR} {verdict : Verdict}
    (ran : (performCall call).run e = .ok () e') (judged : e.Judged e' call .goesOn)
    (rest : e'.OneVerdict ops verdict) : e.OneVerdict (.call call :: ops) verdict := by
  have first : (perform (.call call)).run e = .ok () e' := ran
  have stillValid : e'.valid = true := judged.valid.mpr (by decide)
  obtain ⟨events, done, invalid⟩ := rest
  refine ⟨?_, ?_, ?_⟩
  · rw [final_runAll_cons first, events, judged.events, Verdict.events, List.append_nil]
  · rw [final_runAll_cons first]
    exact done
  · rw [failsByMove_cons_iff first]
    simp [stillValid, invalid]

theorem run_oneVerdict (playable : l.Playable) (ops : List Operation) (noReset : .resetLevel ∉ ops)
    (safe : e.Safe l c) (active : e.isFinished = false) : ∃ verdict, e.OneVerdict ops verdict := by
  induction ops generalizing e with
  | nil =>
    refine ⟨.goesOn, (List.append_nil _).symm, ?_, ?_⟩
    · simp [final, (isFinished_eq_false.mp active).2]
    · simp [FailsByMove]
  | cons op ops ih =>
    have later : .resetLevel ∉ ops := fun member => noReset (List.mem_cons_of_mem op member)
    cases op with
    | resetLevel => exact absurd List.mem_cons_self noReset
    | stopLevel => exact ⟨.goesOn, .of_stop active later⟩
    | call call =>
      rcases performCall_judged playable safe active call with ⟨trap, trapped⟩ | ⟨e', verdict, ran, judged, safe'⟩
      · exact ⟨.goesOn, .of_trap active (show (perform (.call call)).run e = _ from trapped)⟩
      · by_cases goesOn : verdict = .goesOn
        · subst goesOn
          obtain ⟨verdict, rest⟩ := ih later safe' judged.stays_active
          exact ⟨verdict, .of_goesOn ran judged rest⟩
        · exact ⟨verdict, .of_finished ran judged goesOn active later⟩

theorem finished_of_middle {earlier later : List Operation} {op : Operation} {before after e' : EngineAR}
    (noReset : .resetLevel ∉ earlier ++ op :: later) (ranEarlier : (runAll perform earlier).run e = .ok () before)
    (ranHere : (perform op).run before = .ok () after) (finished : after.isFinished = true)
    (ran : (runAll perform (earlier ++ op :: later)).run e = .ok () e') : e'.isFinished = true := by
  have noLater : .resetLevel ∉ later := fun member =>
    noReset (List.mem_append_right _ (List.mem_cons_of_mem _ member))
  have frozen := (run_finished noLater finished).1
  rw [runAll_append, ranEarlier] at ran
  simp only [runAll_cons, ranHere] at ran
  rw [final_of_run_ok ran] at frozen
  exact frozen.isFinished finished

theorem OneVerdict.isFinished {ops : List Operation} {verdict : Verdict} {e' : EngineAR}
    (oneVerdict : e.OneVerdict ops verdict) (noReset : .resetLevel ∉ ops)
    (ran : (runAll perform ops).run e = .ok () e')
    (published : e'.eventsBehaviourSubject ≠ e.eventsBehaviourSubject) : e'.isFinished = true := by
  obtain ⟨events, done, invalid⟩ := oneVerdict
  rw [final_of_run_ok ran] at events done
  cases verdict with
  | goesOn =>
    rw [events] at published
    exact absurd (List.append_nil _) published
  | done => simp [EngineAR.isFinished, done.mp rfl]
  | invalid =>
    obtain ⟨earlier, call, later, before, after, rfl, _, ranEarlier, _, failed, lost⟩ := invalid.mp rfl
    exact finished_of_middle noReset ranEarlier failed (by simp [EngineAR.isFinished, lost]) ran

theorem finished_of_stopLevel {ops : List Operation} {e' : EngineAR} (noReset : .resetLevel ∉ ops)
    (ran : (runAll perform ops).run e = .ok () e') (stop : .stopLevel ∈ ops) : e'.isFinished = true := by
  obtain ⟨earlier, later, rfl⟩ := List.append_of_mem stop
  obtain ⟨before, ranEarlier, _⟩ := runAll_append_ok.mp ran
  have stops : (perform .stopLevel).run before = .ok () before.stopped := rfl
  exact finished_of_middle noReset ranEarlier stops (by simp [stopped, EngineAR.isFinished]) ran

end Runs

theorem Safe.of_reset {l : DataLevel} {c : Cell} {e₀ e : EngineAR} (playable : l.Playable) {before : List Operation}
    (safe : e₀.Safe l c) (ran : (runAll perform (before ++ [.resetLevel])).run e₀ = .ok () e) :
    e.Safe l c ∧ e.isFinished = false := by
  obtain ⟨middle, ranBefore, ranReset⟩ := runAll_append_ok.mp ran
  have safe' := (run_safe playable c before).of_run_ok safe ranBefore
  cases ranReset
  exact ⟨safe'.restarted, rfl⟩

/-- Between two resets one verdict is published at most, and from it or from a stop on everything is frozen. -/
theorem verdict_once_and_final {l : DataLevel} (playable : l.Playable) (player : List PlayerCommand) :
    ∃ e₀, init l player = .ok e₀ ∧ ∀ before between e₁, (before = [] ∨ before.getLast? = some .resetLevel) →
      (runAll perform before).run e₀ = .ok () e₁ → .resetLevel ∉ between →
        (∃ verdict, e₁.OneVerdict between verdict) ∧
        ∀ earlier later e₂, between = earlier ++ later → (runAll perform earlier).run e₁ = .ok () e₂ →
          (e₂.eventsBehaviourSubject ≠ e₁.eventsBehaviourSubject ∨ .stopLevel ∈ earlier) →
          e₂.Frozen (final (runAll perform later) e₂) := by
  obtain ⟨c, inside, built, _⟩ := init_started playable player
  refine ⟨_, built, ?_⟩
  intro before between e₁ reset ran noReset
  have begins : e₁.Safe l c ∧ e₁.isFinished = false := by
    rcases reset with rfl | last
    · cases ran
      exact ⟨started_safe inside, rfl⟩
    · obtain ⟨resets, rfl⟩ := List.getLast?_eq_some_iff.mp last
      exact (started_safe inside).of_reset playable ran
  refine ⟨run_oneVerdict playable between noReset begins.1 begins.2, ?_⟩
  intro earlier later e₂ parts ranEarlier frozen
  subst parts
  have noEarlier : .resetLevel ∉ earlier := fun member => noReset (List.mem_append_left _ member)
  have noLater : .resetLevel ∉ later := fun member => noReset (List.mem_append_right _ member)
  refine (run_finished noLater ?_).1
  rcases frozen with published | stop
  · obtain ⟨verdict, oneVerdict⟩ := run_oneVerdict playable earlier noEarlier begins.1 begins.2
    exact oneVerdict.isFinished noEarlier ranEarlier published
  · exact finished_of_stopLevel noEarlier ranEarlier stop

theorem verdict_once_and_final_short :
    ∃ e₀, init shortLevel [] = .ok e₀ ∧
      (∃ verdict, e₀.OneVerdict
        [.call (.plain .turnRight), .call (.plain .moveFront), .call (.plain .moveBack)] verdict) ∧
      (final (runAll perform [.call (.plain .turnRight), .call (.plain .moveFront)]) e₀).Frozen
        (final (runAll perform [.call (.plain .moveBack)])
          (final (runAll perform [.call (.plain .turnRight), .call (.plain .moveFront)]) e₀)) := by
  obtain ⟨e₀, built, verdict⟩ := verdict_once_and_final shortLevel_playable []
  cases built
  obtain ⟨once, frozen⟩ := verdict []
    [.call (.plain .turnRight), .call (.plain .moveFront), .call (.plain .moveBack)] _ (.inl rfl) rfl (by simp)
  refine ⟨_, rfl, once, ?_⟩
  exact frozen [.call (.plain .turnRight), .call (.plain .moveFront)] [.call (.plain .moveBack)] _ rfl
    (run_eq_of_trapOf_eq_none (by decide +kernel)) (.inl (by decide +kernel))

end EngineAR

end ArRobotCode
