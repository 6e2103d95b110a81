import ArRobotCode.Game.Session
import ArRobotCode.Game.EngineSafety

namespace ArRobotCode.GameSession

open Swift Trapping

variable {s s' : GameSession}

theorem onEngine_run (x : Method EngineAR Unit) (s : GameSession) :
    (onEngine x).run s = match x.run s.engineAR with
      | .ok _ e => .ok () { s with engineAR := e }
      | .error trap e => .error trap { s with engineAR := e } := by
  rw [onEngine, run_within]
  cases x.run s.engineAR <;> rfl

def Keeps {α : Type} (queue : List String) (x : Method GameSession α) : Prop :=
  Triple (fun s => s.instructionsBehaviourSubject = queue) x
    (fun _ s => s.instructionsBehaviourSubject = queue) fun _ _ => True

section Keeps

variable {α β : Type} {queue : List String}

theorem Keeps.bind {x : Method GameSession α} {f : α → Method GameSession β} (first : Keeps queue x)
    (rest : ∀ a, Keeps queue (f a)) : Keeps queue (x >>= f) := Triple.bind first rest

theorem keeps_subscript (tokens : List String) (i : Int) : Keeps queue (subscript tokens i) := triple_subscript tokens i

theorem keeps_glowBlock (block glows : String) : Keeps queue (glowBlock block glows) := fun _ kept => kept

theorem keeps_onEngine (x : Method EngineAR Unit) : Keeps queue (onEngine x) := by
  intro s kept
  rw [onEngine_run]
  cases x.run s.engineAR with
  | ok _ e => exact kept
  | error _ e => trivial

theorem keeps_carryOut (evSplit : List String) : Keeps queue (carryOut evSplit) :=
  (keeps_subscript evSplit 0).bind fun block => (keeps_glowBlock block "true").bind fun _ =>
    (keeps_onEngine _).bind fun _ => (keeps_glowBlock block "false").bind fun _ => keeps_onEngine _

end Keeps

theorem mem_posted {response : String} {schedule : List SessionAction} :
    response ∈ posted schedule ↔ .post response ∈ schedule := by
  simp only [posted, List.mem_filterMap]
  constructor
  · intro given
    rcases given with ⟨action, member, shape⟩
    cases action <;> simp_all
  · exact fun member => ⟨_, member, rfl⟩

section Subscribers

variable [Graphemes]

theorem split_ne_nil {message : String} {i : Int} {token : String} (found : at? (split message ' ') i = some token) :
    (split message ' ').length ≠ 0 := by
  intro empty
  rw [List.eq_nil_of_length_eq_zero empty] at found
  simp [at?] at found

theorem run_userContentController_blank {response : String} (blank : split response ' ' = []) (s : GameSession) :
    (userContentController response).run s = .ok () s := by
  simp [userContentController, blank]

theorem run_userContentController_short {response : String} (words : split response ' ' ≠ [])
    (short : at? (split response ' ') 1 = none) (s : GameSession) :
    (userContentController response).run s = .error .indexOutOfRange s := by
  simp [userContentController, words, run_subscript_of_none short]

theorem run_userContentController_named {response name : String} (second : at? (split response ' ') 1 = some name)
    (s : GameSession) :
    (userContentController response).run s = .ok () { s with
      instructionsBehaviourSubject := s.instructionsBehaviourSubject ++
        if name ∈ possibleInstructions then [response] else []
      eventsBehaviourSubject := s.eventsBehaviourSubject ++ if name ∈ possibleEvents then [response] else [] } := by
  by_cases instruction : name ∈ possibleInstructions <;> by_cases event : name ∈ possibleEvents <;>
    simp [userContentController, -bind_pure_comp, -List.length_eq_zero_iff, EStateM.run_bind, split_ne_nil second,
      run_subscript_of_some second, instruction, event]

theorem userContentController_cases {response : String} (posts : (userContentController response).run s = .ok () s') :
    s'.engineAR = s.engineAR ∧
      ∃ messages, s'.instructionsBehaviourSubject = s.instructionsBehaviourSubject ++ messages ∧
        ∀ m ∈ messages, m = response := by
  by_cases blank : split response ' ' = []
  · rw [run_userContentController_blank blank] at posts
    cases posts
    exact ⟨rfl, [], by simp, by simp⟩
  · cases second : at? (split response ' ') 1 with
    | none =>
      rw [run_userContentController_short blank second] at posts
      cases posts
    | some name =>
      rw [run_userContentController_named second] at posts
      cases posts
      refine ⟨rfl, _, rfl, ?_⟩
      intro m member
      split_ifs at member
      · exact List.mem_singleton.mp member
      · exact absurd member List.not_mem_nil

theorem run_consumeEvent_blank {event : String} {later : List String}
    (head : s.eventsBehaviourSubject = event :: later) (blank : split event ' ' = []) :
    consumeEvent.run s = .ok () { s with eventsBehaviourSubject := later } := by
  simp [consumeEvent, -bind_pure_comp, EStateM.run_bind, head, blank]

theorem run_consumeEvent_short {event : String} {later : List String}
    (head : s.eventsBehaviourSubject = event :: later) (words : split event ' ' ≠ [])
    (short : at? (split event ' ') 1 = none) :
    consumeEvent.run s = .error .indexOutOfRange { s with eventsBehaviourSubject := later } := by
  simp [consumeEvent, -bind_pure_comp, EStateM.run_bind, head, words, run_subscript_of_none short]

theorem run_consumeEvent_named {event name : String} {later : List String}
    (head : s.eventsBehaviourSubject = event :: later) (second : at? (split event ' ') 1 = some name) :
    consumeEvent.run s = .ok () { s with
      eventsBehaviourSubject := later
      engineAR := if name = "stop" then s.engineAR.stopped else s.engineAR } := by
  by_cases isStop : name = "stop" <;>
    simp [consumeEvent, -bind_pure_comp, -List.length_eq_zero_iff, EStateM.run_bind, head, split_ne_nil second,
      run_subscript_of_some second, isStop, onEngine_run, EngineAR.run_stopLevel]

theorem run_consumeEvent_stop {stop : String} {later : List String}
    (head : s.eventsBehaviourSubject = stop :: later) (isStop : IsStop stop) :
    consumeEvent.run s = .ok () { s with eventsBehaviourSubject := later, engineAR := s.engineAR.stopped } := by
  rw [run_consumeEvent_named head isStop, if_pos rfl]

theorem consumeEvent_cases (consumes : consumeEvent.run s = .ok () s') :
    s'.instructionsBehaviourSubject = s.instructionsBehaviourSubject ∧
      (s'.engineAR = s.engineAR ∨ s'.engineAR = s.engineAR.stopped) := by
  cases queue : s.eventsBehaviourSubject with
  | nil =>
    simp [consumeEvent, queue] at consumes
    exact ⟨by rw [consumes], .inl (by rw [consumes])⟩
  | cons event later =>
    by_cases blank : split event ' ' = []
    · rw [run_consumeEvent_blank queue blank] at consumes
      cases consumes
      exact ⟨rfl, .inl rfl⟩
    · cases second : at? (split event ' ') 1 with
      | none =>
        rw [run_consumeEvent_short queue blank second] at consumes
        cases consumes
      | some name =>
        rw [run_consumeEvent_named queue second] at consumes
        cases consumes
        refine ⟨rfl, ?_⟩
        by_cases isStop : name = "stop"
        · exact .inr (if_pos isStop)
        · exact .inl (if_neg isStop)

theorem run_instruct_run {message : String} (isRun : IsRun message) (e : EngineAR) :
    (instruct (split message ' ')).run e = .ok () e.restarted := by
  simp [instruct, EStateM.run_bind, run_subscript_of_some isRun, EngineAR.run_resetLevel]

theorem run_carryOut_run {message : String} (isRun : IsRun message) (s : GameSession) :
    ∃ s', (carryOut (split message ' ')).run s = .ok () s' ∧ s'.engineAR.valid = true ∧
      s'.instructionsBehaviourSubject = s.instructionsBehaviourSubject := by
  have second := (at?_isSome_iff (split message ' ') 1).mp (by rw [isRun]; rfl)
  obtain ⟨block, found⟩ := at?_of_bounds (Int.le_refl 0) (show 0 < ((split message ' ').length : Int) by omega)
  simp only [carryOut, EStateM.run_bind, run_subscript_of_some found, glowBlock, EStateM.run_modify, onEngine_run,
    run_instruct_run isRun, EngineAR.setStatus]
  exact ⟨_, rfl, rfl, rfl⟩

theorem run_consumeInstruction {event : String} {later : List String}
    (queue : s.instructionsBehaviourSubject = event :: later) (nonempty : (split event ' ').length ≠ 0) :
    consumeInstruction.run s =
      if s.engineAR.isFinished = true ∧ ¬ IsRun event then
        match at? (split event ' ') 1 with
        | some _ => .ok () { s with instructionsBehaviourSubject := later }
        | none => .error .indexOutOfRange { s with instructionsBehaviourSubject := later }
      else (carryOut (split event ' ')).run { s with instructionsBehaviourSubject := later } := by
  cases name : at? (split event ' ') 1 with
  | none =>
    have notRun : ¬ IsRun event := by simp [IsRun, name]
    cases finished : s.engineAR.isFinished <;>
      simp [consumeInstruction, -bind_pure_comp, -List.length_eq_zero_iff, EStateM.run_bind, queue, nonempty, finished,
        run_subscript_of_none name, notRun]
  | some token =>
    have isRun : IsRun event ↔ token = "run" := by simp [IsRun, name]
    cases finished : s.engineAR.isFinished <;> by_cases run : token = "run" <;>
      simp [consumeInstruction, -bind_pure_comp, -List.length_eq_zero_iff, EStateM.run_bind, queue, nonempty, finished,
        run_subscript_of_some name, run, isRun]

theorem consumeInstruction_cases (consumes : consumeInstruction.run s = .ok () s') :
    (s.instructionsBehaviourSubject = [] ∧ s' = s) ∨
      ∃ m later, s.instructionsBehaviourSubject = m :: later ∧ s'.instructionsBehaviourSubject = later ∧
        (IsRun m → s'.engineAR.valid = true) ∧
        (¬ IsRun m → s.engineAR.isFinished = true → s'.engineAR = s.engineAR) := by
  cases queue : s.instructionsBehaviourSubject with
  | nil =>
    simp [consumeInstruction, queue] at consumes
    exact .inl ⟨rfl, consumes.symm⟩
  | cons event later =>
    refine .inr ⟨event, later, rfl, ?_⟩
    by_cases empty : (split event ' ').length = 0
    · simp [consumeInstruction, -bind_pure_comp, -List.length_eq_zero_iff, EStateM.run_bind, queue, empty] at consumes
      subst consumes
      exact ⟨rfl, fun isRun => absurd empty (split_ne_nil isRun), fun _ _ => rfl⟩
    rw [run_consumeInstruction queue empty] at consumes
    by_cases ignored : s.engineAR.isFinished = true ∧ ¬ IsRun event
    · rw [if_pos ignored] at consumes
      cases name : at? (split event ' ') 1 with
      | none => simp [name] at consumes
      | some token =>
        simp only [name, EStateM.Result.ok.injEq, true_and] at consumes
        subst consumes
        exact ⟨rfl, fun isRun => absurd isRun ignored.2, fun _ _ => rfl⟩
    · rw [if_neg ignored] at consumes
      refine ⟨(keeps_carryOut _).of_run_ok rfl consumes, fun isRun => ?_, fun other finished => ?_⟩
      · obtain ⟨last, ran, valid, _⟩ := run_carryOut_run isRun { s with instructionsBehaviourSubject := later }
        rw [ran] at consumes
        cases consumes
        exact valid
      · exact absurd ⟨finished, other⟩ ignored

structure Quiet (history : List PlayerCommand) (s : GameSession) : Prop where
  invalid : s.engineAR.valid = false
  silent : s.engineAR.playerController = history
  noRun : ∀ m ∈ s.instructionsBehaviourSubject, ¬ IsRun m

theorem perform_quiet {history : List PlayerCommand} {action : SessionAction}
    (noRun : ∀ response, action = .post response → ¬ IsRun response) :
    Triple (Quiet history) (perform action) (fun _ => Quiet history) fun _ _ => True := by
  intro s quiet
  cases ran : (perform action).run s with
  | error trap s' => trivial
  | ok _ s' =>
    cases action with
    | post response =>
      obtain ⟨engine, messages, queue, posted⟩ := userContentController_cases ran
      refine ⟨by rw [engine]; exact quiet.invalid, by rw [engine]; exact quiet.silent, fun m member => ?_⟩
      rcases List.mem_append.mp (queue ▸ member) with old | new
      · exact quiet.noRun m old
      · rw [posted m new]
        exact noRun response rfl
    | consumeEvent =>
      obtain ⟨queue, engine | engine⟩ := consumeEvent_cases ran
      · exact ⟨engine ▸ quiet.invalid, engine ▸ quiet.silent, queue ▸ quiet.noRun⟩
      · exact ⟨by rw [engine]; rfl, by rw [engine]; exact quiet.silent, queue ▸ quiet.noRun⟩
    | consumeInstruction =>
      obtain ⟨_, rfl⟩ | ⟨m, later, queue, queue', _, idle⟩ := consumeInstruction_cases ran
      · exact quiet
      · have noRun := queue ▸ quiet.noRun
        have engine := idle (noRun m List.mem_cons_self) (by simp [EngineAR.isFinished, quiet.invalid])
        refine ⟨engine ▸ quiet.invalid, engine ▸ quiet.silent, fun m' member => ?_⟩
        exact noRun m' (List.mem_cons_of_mem m (queue' ▸ member))

theorem run_quiet {history : List PlayerCommand} {schedule : List SessionAction}
    (noRun : ∀ m ∈ posted schedule, ¬ IsRun m) :
    Triple (Quiet history) (runAll perform schedule) (fun _ => Quiet history) fun _ _ => True :=
  Triple.runAll fun _ member => perform_quiet fun response shape =>
    noRun response (mem_posted.mpr (shape ▸ member))

theorem pending_run_revives {schedule : List SessionAction} (ran : (runAll perform schedule).run s = .ok () s')
    (drained : s'.instructionsBehaviourSubject = []) (pending : ∃ m ∈ s.instructionsBehaviourSubject, IsRun m) :
    ∃ first rest middle, schedule = first ++ rest ∧ (runAll perform first).run s = .ok () middle ∧
      middle.engineAR.valid = true := by
  induction schedule generalizing s with
  | nil =>
    cases ran
    obtain ⟨m, member, _⟩ := pending
    simp [drained] at member
  | cons action schedule ih =>
    obtain ⟨next, step, ranRest⟩ := runAll_cons_ok.mp ran
    obtain ⟨m, member, isRun⟩ := pending
    have later : (∃ m ∈ next.instructionsBehaviourSubject, IsRun m) → ∃ first rest middle,
        action :: schedule = first ++ rest ∧ (runAll perform first).run s = .ok () middle ∧
          middle.engineAR.valid = true := by
      intro still
      obtain ⟨first, rest, middle, split, ranFirst, valid⟩ := ih ranRest still
      exact ⟨action :: first, rest, middle, by rw [split]; rfl, runAll_cons_ok.mpr ⟨next, step, ranFirst⟩, valid⟩
    cases action with
    | post response =>
      obtain ⟨_, messages, queue, _⟩ := userContentController_cases step
      exact later ⟨m, by rw [queue]; exact List.mem_append_left _ member, isRun⟩
    | consumeEvent => exact later ⟨m, by rw [(consumeEvent_cases step).1]; exact member, isRun⟩
    | consumeInstruction =>
      obtain ⟨empty, _⟩ | ⟨m', rest, queue, queue', revives, _⟩ := consumeInstruction_cases step
      · simp [empty] at member
      · rw [queue] at member
        rcases List.mem_cons.mp member with rfl | still
        · exact ⟨[.consumeInstruction], schedule, next, rfl, runAll_cons_ok.mpr ⟨next, step, rfl⟩, revives isRun⟩
        · exact later ⟨m, by rw [queue']; exact still, isRun⟩

/-- A session from its start to a point where both subjects are used up: the last `run` of the web page comes
    before its last `stop`, and that stop is the next value of the events subscriber in `s₁`. -/
structure StopSchedule (level : DataLevel) (player : List PlayerCommand) (before after : List SessionAction)
    (s₁ s₂ : GameSession) : Prop where
  ordered : ∃ earlier stop later, posted (before ++ after) = earlier ++ stop :: later ∧ IsStop stop ∧
    ∀ m ∈ later, ¬ IsRun m
  ranBefore : ∃ s₀, viewDidLoad level player = .ok s₀ ∧ (runAll perform before).run s₀ = .ok () s₁
  next : ∃ stop later, s₁.eventsBehaviourSubject = stop :: later ∧ IsStop stop ∧
    ∀ m ∈ later ++ posted after, ¬ IsStop m
  consumed : consumeEvent.run s₁ = .ok () s₂
  drained : ∃ s₃, (runAll perform after).run s₂ = .ok () s₃ ∧ s₃.instructionsBehaviourSubject = [] ∧
    s₃.eventsBehaviourSubject = []

structure Obeyed (s : GameSession) (after : List SessionAction) : Prop where
  quiet : ∀ first rest s', after = first ++ rest → (runAll perform first).run s = .ok () s' →
    s'.engineAR.playerController = s.engineAR.playerController ∧ s'.engineAR.valid = false
  finished : ∀ s', (runAll perform after).run s = .ok () s' → s'.engineAR.isFinished = true

theorem StopSchedule.noRun_after {level : DataLevel} {player : List PlayerCommand} {before after : List SessionAction}
    {s₁ s₂ : GameSession} (schedule : StopSchedule level player before after s₁ s₂) :
    ∀ m ∈ posted after, ¬ IsRun m := by
  obtain ⟨earlier, stop, later, split, isStop, noRun⟩ := schedule.ordered
  obtain ⟨_, _, _, _, noStop⟩ := schedule.next
  have stopBefore : stop ∉ posted after := fun member => noStop stop (List.mem_append_right _ member) isStop
  simp only [posted, List.filterMap_append] at split
  rcases List.append_eq_append_iff.mp split with ⟨gap, _, tail⟩ | ⟨gap, _, tail⟩
  · exact absurd (by rw [posted, tail]; simp) stopBefore
  · cases gap with
    | nil => exact absurd (by rw [posted, ← List.nil_append (List.filterMap _ after), ← tail]; simp) stopBefore
    | cons first gap =>
      intro m member
      rw [List.cons_append, List.cons.injEq] at tail
      exact noRun m (by rw [tail.2]; exact List.mem_append_right _ member)

/-- The stop is obeyed exactly when no `run` is waiting for the instructions subscriber as it is consumed. -/
theorem stop_obeyed_iff {level : DataLevel} {player : List PlayerCommand} {before after : List SessionAction}
    {s₁ s₂ : GameSession} (schedule : StopSchedule level player before after s₁ s₂) :
    Obeyed s₂ after ↔ ∀ m ∈ s₁.instructionsBehaviourSubject, ¬ IsRun m := by
  obtain ⟨s₃, ranAfter, used, _⟩ := schedule.drained
  have kept := (consumeEvent_cases schedule.consumed).1
  constructor
  · intro obeyed m member isRun
    obtain ⟨first, rest, middle, parts, ranFirst, valid⟩ :=
      pending_run_revives ranAfter used ⟨m, by rw [kept]; exact member, isRun⟩
    have invalid := (obeyed.quiet first rest middle parts ranFirst).2
    simp [valid] at invalid
  · intro noRun
    obtain ⟨stop, later, head, isStop, _⟩ := schedule.next
    have stopped : s₂.engineAR.valid = false := by
      have consumed := schedule.consumed
      rw [run_consumeEvent_stop head isStop] at consumed
      cases consumed
      rfl
    have start : Quiet s₂.engineAR.playerController s₂ := ⟨stopped, rfl, by rw [kept]; exact noRun⟩
    have laterQuiet : ∀ first rest s', after = first ++ rest → (runAll perform first).run s₂ = .ok () s' →
        Quiet s₂.engineAR.playerController s' := by
      intro first rest s' parts ran
      refine (run_quiet fun m member => ?_).of_run_ok start ran
      refine schedule.noRun_after m ?_
      rw [parts, mem_posted]
      exact List.mem_append_left _ (mem_posted.mp member)
    refine ⟨fun first rest s' parts ran => ?_, fun s' ran => ?_⟩
    · have quiet := laterQuiet first rest s' parts ran
      exact ⟨quiet.silent, quiet.invalid⟩
    · have quiet := laterQuiet after [] s' (List.append_nil after).symm ran
      simp [EngineAR.isFinished, quiet.invalid]

end Subscribers

local instance : Graphemes := .marks

def stoppedAtOnce (actions : List SessionAction) : GameSession :=
  final (runAll perform (.post "00 run" :: .post "00 stop" :: actions))
    { engineAR := (EngineAR.started EngineAR.shortLevel [] ⟨0, 0⟩).restarted }

theorem stop_obeyed_after_run :
    Obeyed (stoppedAtOnce [.consumeInstruction, .consumeInstruction, .consumeEvent, .consumeEvent, .consumeEvent])
      [] := by
  have schedule : StopSchedule EngineAR.shortLevel [] [.post "00 run", .post "00 stop", .consumeInstruction,
      .consumeInstruction, .consumeEvent, .consumeEvent] []
      (stoppedAtOnce [.consumeInstruction, .consumeInstruction, .consumeEvent, .consumeEvent]) _ :=
    ⟨⟨["00 run"], "00 stop", [], rfl, by decide, by decide⟩, ⟨_, rfl, rfl⟩, ⟨"00 stop", [], rfl, by decide, by decide⟩,
      rfl, ⟨_, rfl, rfl, rfl⟩⟩
  exact (stop_obeyed_iff schedule).mpr (by decide)

/-- The events subscriber is through before the instructions subscriber takes the `run`. -/
theorem stop_overtaken :
    StopSchedule EngineAR.shortLevel [] [.post "00 run", .post "00 stop", .consumeEvent, .consumeEvent]
        [.consumeInstruction, .consumeInstruction] (stoppedAtOnce [.consumeEvent, .consumeEvent])
        (stoppedAtOnce [.consumeEvent, .consumeEvent, .consumeEvent]) ∧
      ¬ Obeyed (stoppedAtOnce [.consumeEvent, .consumeEvent, .consumeEvent])
        [.consumeInstruction, .consumeInstruction] := by
  refine ⟨⟨⟨["00 run"], "00 stop", [], rfl, by decide, by decide⟩, ⟨_, rfl, rfl⟩,
    ⟨"00 stop", [], rfl, by decide, by decide⟩, rfl, ⟨_, rfl, rfl, rfl⟩⟩, fun obeyed => ?_⟩
  have finished := obeyed.finished _ rfl
  revert finished
  decide

end ArRobotCode.GameSession
