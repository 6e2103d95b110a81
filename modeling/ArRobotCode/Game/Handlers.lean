import ArRobotCode.Game.Protocol

namespace ArRobotCode.GameSession

open Swift Trapping Scratch

section Words

variable {l : DataLevel} {c : GridWalk.Cell} {e : EngineAR} {tokens : List String} {name : String}

theorem instruction_cases (name : String) :
    name ∉ possibleInstructions ∨ name = "run" ∨ ∃ block : RobotBlock, name = block.instruction := by
  by_cases instruction : name ∈ possibleInstructions
  · by_cases event : name ∈ possibleEvents
    · simp only [possibleEvents, List.mem_cons, List.not_mem_nil, or_false] at event
      rcases event with run | stop
      · exact .inr (.inl run)
      · rw [stop] at instruction
        exact absurd instruction (by decide)
    · exact .inr (.inr (RobotBlock.exists_of_mem instruction event))
  · exact .inl instruction

theorem run_instruct_other (second : at? tokens 1 = some name) (other : name ∉ possibleInstructions)
    (e : EngineAR) : (instruct tokens).run e = .ok () e := by
  simp only [possibleInstructions, List.mem_cons, List.not_mem_nil, or_false, not_or] at other
  simp [instruct, EStateM.run_bind, run_subscript_of_some second, other]

theorem run_instruct_restart (second : at? tokens 1 = some "run") (e : EngineAR) :
    (instruct tokens).run e = .ok () e.restarted := by
  simp [instruct, EStateM.run_bind, run_subscript_of_some second, EngineAR.run_resetLevel]

def ArgumentReads (block : RobotBlock) (tokens : List String) : Prop :=
  block.isConditional = true → ∃ code n, at? tokens 2 = some code ∧ parseInt code = some n ∧ n + 3 ≤ intMax

theorem trapOf_performCall_iff (playable : l.Playable) (safe : e.Safe l c) (active : e.isFinished = false)
    (call : Call) : trapOf (EngineAR.performCall call) e = none ↔ call.Decodes := by
  constructor
  · intro runs
    cases call with
    | plain m => trivial
    | conditional m code =>
      have ran := EngineAR.run_conditional (by rw [safe.level]; exact playable) active
        (by rw [safe.level]; exact safe.inside active) m code
      cases parsed : parseInt code with
      | none => simp [trapOf, ran, EngineAR.tileTypeOf, parsed] at runs
      | some n =>
        by_cases fits : n + 3 ≤ intMax
        · exact ⟨n, parsed, fits⟩
        · simp [trapOf, ran, EngineAR.tileTypeOf, parsed, fits] at runs
  · intro decodes
    obtain ⟨e', ran⟩ := run_call_ok playable safe active decodes
    simp [trapOf, ran]

theorem trapOf_instruct_block (playable : l.Playable) (safe : e.Safe l c) (active : e.isFinished = false)
    {block : RobotBlock} (second : at? tokens 1 = some block.instruction) :
    trapOf (instruct tokens) e = none ↔ ArgumentReads block tokens := by
  cases conditional : block.isConditional with
  | false =>
    have ran := @run_instruct _ _ "" second (by simp [conditional]) e
    have runs := (trapOf_performCall_iff playable safe active (block.call "")).mpr
      (by simp [RobotBlock.call, conditional, Call.Decodes])
    simp only [trapOf, ran] at runs ⊢
    simp [runs, ArgumentReads, conditional]
  | true =>
    cases third : at? tokens 2 with
    | none => simp [trapOf, run_instruct_missing second conditional third, ArgumentReads, conditional, third]
    | some code =>
      have ran := run_instruct second (fun _ => third) e
      have runs := trapOf_performCall_iff playable safe active (block.call code)
      simp only [trapOf, ran] at runs ⊢
      rw [runs]
      simp [ArgumentReads, RobotBlock.call, Call.Decodes, conditional, third]

theorem trapOf_instruct_iff (playable : l.Playable) (safe : e.Safe l c) (active : e.isFinished = false)
    (second : at? tokens 1 = some name) :
    trapOf (instruct tokens) e = none ↔
      ∀ block : RobotBlock, name = block.instruction → ArgumentReads block tokens := by
  constructor
  · intro runs block named
    rw [named] at second
    exact (trapOf_instruct_block playable safe active second).mp runs
  · intro reads
    rcases instruction_cases name with other | run | ⟨block, named⟩
    · simp [trapOf, run_instruct_other second other]
    · rw [run] at second
      simp [trapOf, run_instruct_restart second]
    · have here := reads block named
      rw [named] at second
      exact (trapOf_instruct_block playable safe active second).mpr here

theorem performCall_safe (playable : l.Playable) (call : Call) :
    Triple (EngineAR.Safe l c) (EngineAR.performCall call) (fun _ => EngineAR.Safe l c) fun _ _ => True :=
  (EngineAR.perform_safe playable c (.call call)).weaken fun _ _ _ => trivial

theorem instruct_safe (playable : l.Playable) (tokens : List String) :
    Triple (EngineAR.Safe l c) (instruct tokens) (fun _ => EngineAR.Safe l c) fun _ _ => True := by
  intro e safe
  cases second : at? tokens 1 with
  | none => simp [instruct, EStateM.run_bind, run_subscript_of_none second]
  | some name =>
    rcases instruction_cases name with other | run | ⟨block, named⟩
    · rw [run_instruct_other second other]
      exact safe
    · rw [run] at second
      rw [run_instruct_restart second]
      exact safe.restarted
    · rw [named] at second
      cases conditional : block.isConditional with
      | false =>
        rw [@run_instruct _ _ "" second (by simp [conditional])]
        exact performCall_safe playable (block.call "") e safe
      | true =>
        cases third : at? tokens 2 with
        | none => rw [run_instruct_missing second conditional third]; trivial
        | some code =>
          rw [run_instruct second fun _ => third]
          exact performCall_safe playable (block.call code) e safe

theorem carryOut_safe (playable : l.Playable) (tokens : List String) :
    Triple (fun s => s.engineAR.Safe l c) (carryOut tokens) (fun _ s => s.engineAR.Safe l c) fun _ _ => True := by
  intro s safe
  cases first : at? tokens 0 with
  | none => simp [carryOut, EStateM.run_bind, run_subscript_of_none first]
  | some block =>
    obtain ⟨glowing, glowed, carried⟩ := run_carryOut first s
    have outcome := instruct_safe playable tokens s.engineAR safe
    rw [carried]
    cases ran : (instruct tokens).run s.engineAR with
    | error trap e => trivial
    | ok _ e =>
      rw [ran] at outcome
      exact ⟨outcome.level, outcome.start, outcome.startInside, outcome.facing, outcome.inside⟩

end Words

def receivingEvent (s : GameSession) (response : String) (later : List String) : GameSession :=
  { s with eventsBehaviourSubject := response :: later }

@[simp] theorem receivingEvent_queue (s : GameSession) (response : String) (later : List String) :
    (s.receivingEvent response later).eventsBehaviourSubject = response :: later := rfl

@[simp] theorem receivingEvent_engineAR (s : GameSession) (response : String) (later : List String) :
    (s.receivingEvent response later).engineAR = s.engineAR := rfl

def receivingInstruction (s : GameSession) (response : String) (later : List String) : GameSession :=
  { s with instructionsBehaviourSubject := response :: later }

section Handlers

variable [Graphemes]

def Reached (level : DataLevel) (player : List PlayerCommand) (s : GameSession) : Prop :=
  ∃ s₀ schedule, viewDidLoad level player = .ok s₀ ∧ (runAll perform schedule).run s₀ = .ok () s

/-- An id, then a run, a stop or an instruction; after an If instruction the number of a tile. -/
def ProtocolMessage (response : String) : Prop :=
  ∃ name, at? (split response ' ') 1 = some name ∧
    (name ∈ possibleEvents ∨ ∃ block : RobotBlock, name = block.instruction ∧ ArgumentReads block (split response ' '))

structure Untouched (s : GameSession) (response : String) : Prop where
  posted : (final (userContentController response) s).engineAR = s.engineAR
  event : ∀ later, (final consumeEvent (s.receivingEvent response later)).engineAR = s.engineAR
  instruction : (final (userContentController response) s).instructionsBehaviourSubject =
      s.instructionsBehaviourSubject ++ [response] →
    ∀ later, (final consumeInstruction (s.receivingInstruction response later)).engineAR = s.engineAR

structure Handled (s : GameSession) (response : String) : Prop where
  posted : trapOf (userContentController response) s = none
  event : ∀ later, trapOf consumeEvent (s.receivingEvent response later) = none
  instruction : ∀ later, trapOf consumeInstruction (s.receivingInstruction response later) = none
  untouched : ¬ ProtocolMessage response → s.Untouched response

/-- No words, or two at least; and in an unfinished game an If instruction has a number that takes an addition of 3. -/
def Readable (s : GameSession) (response : String) : Prop :=
  split response ' ' = [] ∨ ∃ name, at? (split response ' ') 1 = some name ∧
    ∀ block : RobotBlock, name = block.instruction → s.engineAR.isFinished = false →
      ArgumentReads block (split response ' ')

variable {s : GameSession} {response name : String}

theorem run_consumeInstruction_blank {later : List String} (blank : split response ' ' = []) :
    consumeInstruction.run (s.receivingInstruction response later) =
      .ok () { s with instructionsBehaviourSubject := later } := by
  simp [consumeInstruction, receivingInstruction, -bind_pure_comp, EStateM.run_bind, blank]

theorem trapOf_carryOut (second : at? (split response ' ') 1 = some name) (s : GameSession) :
    trapOf (carryOut (split response ' ')) s = none ↔ trapOf (instruct (split response ' ')) s.engineAR = none := by
  have bounds := (at?_isSome_iff (split response ' ') 1).mp (by rw [second]; rfl)
  obtain ⟨block, first⟩ := at?_of_bounds (Int.le_refl 0) (show 0 < ((split response ' ').length : Int) by omega)
  obtain ⟨glowing, glowed, carried⟩ := run_carryOut first s
  unfold trapOf
  rw [carried]
  cases (instruct (split response ' ')).run s.engineAR <;> simp

section Safety

variable {l : DataLevel} {c : GridWalk.Cell}

theorem consumeInstruction_safe (playable : l.Playable) :
    Triple (fun s : GameSession => s.engineAR.Safe l c) consumeInstruction (fun _ s => s.engineAR.Safe l c)
      fun _ _ => True := by
  intro s safe
  cases queue : s.instructionsBehaviourSubject with
  | nil => simpa [consumeInstruction, queue] using safe
  | cons event later =>
    by_cases empty : (split event ' ').length = 0
    · simpa [consumeInstruction, -bind_pure_comp, -List.length_eq_zero_iff, EStateM.run_bind, queue, empty] using safe
    · rw [run_consumeInstruction queue empty]
      split_ifs
      · cases at? (split event ' ') 1 with
        | none => trivial
        | some name => exact safe
      · exact carryOut_safe playable _ { s with instructionsBehaviourSubject := later } safe

theorem perform_keeps_safe (playable : l.Playable) (action : SessionAction) :
    Triple (fun s => s.engineAR.Safe l c) (perform action) (fun _ s => s.engineAR.Safe l c) fun _ _ => True := by
  cases action with
  | consumeInstruction => exact consumeInstruction_safe playable
  | post response =>
    intro s safe
    cases ran : (perform (.post response)).run s with
    | error trap s' => trivial
    | ok _ s' =>
      have engine := (userContentController_cases ran).1
      rw [← engine] at safe
      exact safe
  | consumeEvent =>
    intro s safe
    cases ran : (perform .consumeEvent).run s with
    | error trap s' => trivial
    | ok _ s' =>
      rcases (consumeEvent_cases ran).2 with engine | engine
      · rw [← engine] at safe
        exact safe
      · have stopped := safe.stopped
        rw [← engine] at stopped
        exact stopped

theorem Reached.safe {player : List PlayerCommand} (playable : l.Playable) (reached : Reached l player s) :
    ∃ c, s.engineAR.Safe l c := by
  obtain ⟨s₀, schedule, opened, ran⟩ := reached
  obtain ⟨c, inside, built, _⟩ := EngineAR.init_started playable player
  have begun : viewDidLoad l player = .ok { engineAR := (EngineAR.started l player c).restarted } := by
    simp [viewDidLoad, built, Bind.bind, Except.bind, pure, Except.pure]
  rw [begun] at opened
  cases opened
  have kept : Triple (fun s => s.engineAR.Safe l c) (runAll perform schedule) (fun _ s => s.engineAR.Safe l c)
      fun _ _ => True := Triple.runAll fun action _ => perform_keeps_safe playable action
  exact ⟨c, kept.of_run_ok (EngineAR.started_safe inside).restarted ran⟩

theorem run_consumeInstruction_finished {later : List String} (finished : s.engineAR.isFinished = true)
    (second : at? (split response ' ') 1 = some name) (notRun : name ≠ "run") :
    consumeInstruction.run (s.receivingInstruction response later) =
      .ok () { s with instructionsBehaviourSubject := later } := by
  have ignored : ¬ IsRun response := by simpa [IsRun, second] using notRun
  have ran := run_consumeInstruction (s := s.receivingInstruction response later) rfl (split_ne_nil second)
  rw [if_pos ⟨finished, ignored⟩, second] at ran
  exact ran

theorem trapOf_consumeInstruction_iff (playable : l.Playable) (safe : s.engineAR.Safe l c)
    (second : at? (split response ' ') 1 = some name) (later : List String) :
    trapOf consumeInstruction (s.receivingInstruction response later) = none ↔
      ∀ block : RobotBlock, name = block.instruction → s.engineAR.isFinished = false →
        ArgumentReads block (split response ' ') := by
  have ran := run_consumeInstruction (s := s.receivingInstruction response later) rfl (split_ne_nil second)
  have carried := trapOf_carryOut second { s with instructionsBehaviourSubject := later }
  cases finished : s.engineAR.isFinished with
  | false =>
    have active : ¬ ((s.receivingInstruction response later).engineAR.isFinished = true ∧ ¬ IsRun response) := by
      simp [receivingInstruction, finished]
    rw [if_neg active] at ran
    rw [trapOf_congr ran]
    apply carried.trans
    simpa using trapOf_instruct_iff playable safe finished second
  | true =>
    by_cases run : name = "run"
    · rw [run] at second
      rw [if_neg fun both => both.2 second] at ran
      have runs : trapOf consumeInstruction (s.receivingInstruction response later) = none := by
        rw [trapOf_congr ran]
        apply carried.mpr
        simp only [trapOf, run_instruct_restart second]
      simp [runs]
    · simp [trapOf, run_consumeInstruction_finished finished second run]

theorem handled_blank (blank : split response ' ' = []) : s.Handled response := by
  have posted := run_userContentController_blank blank s
  refine ⟨by simp only [trapOf, posted], ?_, ?_, fun _ => ⟨by simp only [final, posted], ?_, fun _ => ?_⟩⟩
  · intro later
    simp only [trapOf, run_consumeEvent_blank (s.receivingEvent_queue response later) blank]
  · intro later
    simp only [trapOf, run_consumeInstruction_blank blank]
  · intro later
    simp only [final, run_consumeEvent_blank (s.receivingEvent_queue response later) blank, receivingEvent_engineAR]
  · intro later
    simp only [final, run_consumeInstruction_blank blank]

theorem untouched_of_readable (second : at? (split response ' ') 1 = some name) (readable : ∀ block : RobotBlock,
    name = block.instruction → s.engineAR.isFinished = false → ArgumentReads block (split response ' '))
    (noMessage : ¬ ProtocolMessage response) : s.Untouched response := by
  have posted := run_userContentController_named second s
  have noEvent : name ∉ possibleEvents := fun event => noMessage ⟨name, second, .inl event⟩
  have noStop : name ≠ "stop" := by
    intro stop
    rw [stop] at noEvent
    exact noEvent (by decide)
  refine ⟨by simp only [final, posted], ?_, ?_⟩
  · intro later
    simp only [final, run_consumeEvent_named (s.receivingEvent_queue response later) second, if_neg noStop,
      receivingEvent_engineAR]
  · intro published later
    have instruction : name ∈ possibleInstructions := by
      by_contra other
      simp [final, posted, other] at published
    obtain ⟨block, named⟩ := RobotBlock.exists_of_mem instruction noEvent
    have finished : s.engineAR.isFinished = true := by
      by_contra active
      rw [Bool.not_eq_true] at active
      exact noMessage ⟨name, second, .inr ⟨block, named, readable block named active⟩⟩
    have notRun : name ≠ "run" := by
      intro run
      rw [run] at noEvent
      exact noEvent (by decide)
    simp only [final, run_consumeInstruction_finished finished second notRun]

/-- The handlers are total on exactly the strings that they can read: a single word makes them index a second one,
    and an If instruction of an unfinished game forces its argument. -/
theorem handlers_total_iff {player : List PlayerCommand} (playable : l.Playable) (reached : Reached l player s)
    (response : String) : s.Handled response ↔ s.Readable response := by
  obtain ⟨c, safe⟩ := reached.safe playable
  constructor
  · intro handled
    by_cases blank : split response ' ' = []
    · exact .inl blank
    · cases second : at? (split response ' ') 1 with
      | none =>
        have trapped := handled.posted
        simp [trapOf, run_userContentController_short blank second] at trapped
      | some name =>
        exact .inr ⟨name, second, (trapOf_consumeInstruction_iff playable safe second []).mp (handled.instruction [])⟩
  · intro readable
    rcases readable with blank | ⟨name, second, reads⟩
    · exact handled_blank blank
    · refine ⟨?_, ?_, ?_, untouched_of_readable second reads⟩
      · simp only [trapOf, run_userContentController_named second]
      · intro later
        simp only [trapOf, run_consumeEvent_named (s.receivingEvent_queue response later) second]
      · intro later
        exact (trapOf_consumeInstruction_iff playable safe second later).mpr reads

end Safety

end Handlers

local instance marks : Graphemes := .marks

def shortGame : GameSession := { engineAR := (EngineAR.started EngineAR.shortLevel [] ⟨0, 0⟩).restarted }

theorem shortGame_reached : Reached EngineAR.shortLevel [] shortGame := ⟨_, [], rfl, rfl⟩

theorem handlers_total_short : shortGame.Handled "b1 moveFrontIf 2" := by
  apply (handlers_total_iff EngineAR.shortLevel_playable shortGame_reached _).mpr
  refine .inr ⟨"moveFrontIf", by decide, ?_⟩
  intro block named active conditional
  exact ⟨"2", 2, by decide, by decide, by decide⟩

theorem one_word_traps : ¬ ∀ (l : DataLevel) (player : List PlayerCommand) (s : GameSession) (response : String),
    l.Playable → Reached l player s → s.Handled response := by
  intro total
  have handled := total EngineAR.shortLevel [] shortGame "run" EngineAR.shortLevel_playable shortGame_reached
  have trapped := handled.posted
  revert trapped
  decide

end ArRobotCode.GameSession
