import ArRobotCode.Swift.Splitting
import ArRobotCode.Scratch.Instructions
import ArRobotCode.Game.EnginePath
import ArRobotCode.Game.SessionStop

namespace ArRobotCode

open Swift Trapping Scratch

theorem Scratch.printedEntry_word (entry : Option (Option BlockId)) : Word (printedEntry entry) := by
  refine ⟨?_, printedEntry_ascii entry⟩
  rcases entry with _ | _ | id
  · decide
  · decide
  · exact id.nonempty

namespace Scratch.RobotBlock

def motion : RobotBlock → Motion
  | moveSteps | movestepsIf => .moveFront
  | moveStepsBack | movestepsBackIf => .moveBack
  | turnRight | turnrightIf => .turnRight
  | turnLeft | turnleftIf => .turnLeft

def isConditional : RobotBlock → Bool
  | moveSteps | moveStepsBack | turnRight | turnLeft => false
  | movestepsIf | movestepsBackIf | turnleftIf | turnrightIf => true

def call (block : RobotBlock) (argument : String) : Call :=
  if block.isConditional then .conditional block.motion argument else .plain block.motion

theorem instruction_word (block : RobotBlock) : Word block.instruction := by
  cases block <;> exact .of_all (by decide) (by decide)

theorem instruction_mem (block : RobotBlock) :
    block.instruction ∈ GameSession.possibleInstructions ∧ block.instruction ∉ GameSession.possibleEvents := by
  cases block <;> decide

theorem exists_of_mem {name : String} (instruction : name ∈ GameSession.possibleInstructions)
    (noEvent : name ∉ GameSession.possibleEvents) : ∃ block : RobotBlock, name = block.instruction := by
  simp only [GameSession.possibleInstructions, List.mem_cons, List.not_mem_nil, or_false] at instruction
  rcases instruction with rfl | rfl | rfl | rfl | rfl | rfl | rfl | rfl | rfl
  · exact absurd (by decide) noEvent
  · exact ⟨moveSteps, rfl⟩
  · exact ⟨movestepsIf, rfl⟩
  · exact ⟨moveStepsBack, rfl⟩
  · exact ⟨movestepsBackIf, rfl⟩
  · exact ⟨turnLeft, rfl⟩
  · exact ⟨turnleftIf, rfl⟩
  · exact ⟨turnRight, rfl⟩
  · exact ⟨turnrightIf, rfl⟩

end Scratch.RobotBlock

namespace GameSession

theorem run_instruct {tokens : List String} {block : RobotBlock} {argument : String}
    (second : at? tokens 1 = some block.instruction)
    (third : block.isConditional = true → at? tokens 2 = some argument) (e : EngineAR) :
    (instruct tokens).run e = (EngineAR.performCall (block.call argument)).run e := by
  cases block <;>
    simp only [RobotBlock.instruction, RobotBlock.isConditional, forall_const, Bool.false_eq_true, false_imp_iff]
      at second third <;>
    simp [instruct, EStateM.run_bind, run_subscript_of_some second, *, RobotBlock.call, RobotBlock.isConditional,
      RobotBlock.motion, EngineAR.performCall, EngineAR.performMotion, run_subscript_of_some]

theorem run_instruct_missing {tokens : List String} {block : RobotBlock}
    (second : at? tokens 1 = some block.instruction) (conditional : block.isConditional = true)
    (third : at? tokens 2 = none) (e : EngineAR) : (instruct tokens).run e = .error .indexOutOfRange e := by
  cases block <;>
    simp only [RobotBlock.instruction, RobotBlock.isConditional, Bool.false_eq_true] at second conditional <;>
    simp [instruct, EStateM.run_bind, run_subscript_of_some second, run_subscript_of_none third]

theorem run_carryOut {tokens : List String} {block : String} (first : at? tokens 0 = some block) (s : GameSession) :
    ∃ glowing glowed, (carryOut tokens).run s = match (instruct tokens).run s.engineAR with
      | .ok _ e => .ok () { s with engineAR := { e with status := e.status ++ [""] }, sentToJS := glowed }
      | .error trap e => .error trap { s with engineAR := e, sentToJS := glowing } := by
  simp only [carryOut, EStateM.run_bind, run_subscript_of_some first, glowBlock, EStateM.run_modify, onEngine_run]
  cases (instruct tokens).run s.engineAR with
  | ok _ e => exact ⟨[], _, rfl⟩
  | error trap e => exact ⟨_, [], rfl⟩

theorem run_call_ok {l : DataLevel} {c : GridWalk.Cell} {e : EngineAR} (playable : l.Playable) (safe : e.Safe l c)
    (active : e.isFinished = false) {call : Call} (decodes : call.Decodes) :
    ∃ e', (EngineAR.performCall call).run e = .ok () e' := by
  obtain ⟨p, stands, cell⟩ := safe.stands
  obtain ⟨valid, notDone⟩ := EngineAR.isFinished_eq_false.mp active
  have inside := safe.inside active
  rw [← cell] at inside
  have running : e.Running l p := ⟨safe.level, valid, notDone, stands, inside⟩
  rcases running.run_performCall playable decodes with ⟨m, _, ran⟩ | ⟨_, e', ran, _⟩
  · exact ⟨_, ran⟩
  · exact ⟨e', ran⟩

def oneTile (type : Int) : DataLevel := { uuid := "tile", width := 1, height := 1, tiles := [⟨type⟩] }

theorem oneTile_playable (type : Int) : (oneTile type).Playable :=
  ⟨Int.one_pos, Int.one_pos, by simp [oneTile], by simp [oneTile, intMax]⟩

def onTile (type : Int) : EngineAR := EngineAR.started (oneTile type) [] ⟨0, 0⟩

theorem onTile_safe (type : Int) : (onTile type).Safe (oneTile type) ⟨0, 0⟩ :=
  EngineAR.started_safe ⟨by decide, Int.one_pos, by decide, Int.one_pos⟩

theorem afterMotion_playerController (e : EngineAR) (m : Motion) (p : GridWalk.Pose) :
    (e.afterMotion m p).playerController = e.playerController ++ [m.command] := by
  unfold EngineAR.afterMotion
  split
  · cases e.level.verdict p.cell <;> rfl
  · rfl

theorem run_performMotion_onTile (type : Int) (m : Motion) :
    ∃ e, (EngineAR.performMotion m).run (onTile type) = .ok () e ∧ e.playerController = [m.command] := by
  have ran := EngineAR.run_performMotion (e := onTile type) (p := ⟨⟨0, 0⟩, .up⟩) (oneTile_playable type) rfl
    ⟨rfl, rfl⟩ ⟨by decide, Int.one_pos, by decide, Int.one_pos⟩ m
  exact ⟨_, ran, afterMotion_playerController _ _ _⟩

theorem conditional_idle (m : Motion) (code : String) :
    ∃ type, ∀ e, (EngineAR.performCall (.conditional m code)).run (onTile type) = .ok () e →
      e.playerController = [] := by
  cases parsed : EngineAR.tileTypeOf code with
  | error trap =>
    refine ⟨0, ?_⟩
    intro e ran
    rw [EngineAR.run_conditional (oneTile_playable 0) rfl ((onTile_safe 0).inside rfl), parsed] at ran
    cases ran
  | ok type =>
    refine ⟨type + 1, ?_⟩
    intro e ran
    have tile : (onTile (type + 1)).level.tileAt (onTile (type + 1)).crtPosition.cell = some (type + 1) := rfl
    rw [EngineAR.run_conditional (oneTile_playable (type + 1)) rfl
      ((onTile_safe (type + 1)).inside rfl), parsed] at ran
    simp only [tile, Option.some.injEq, show ¬ type + 1 = type by omega, if_false] at ran
    cases ran
    rfl

theorem colorToCode_word (color : Rgb) : Word (colorToCode color) ∧ ∀ block : RobotBlock,
    colorToCode color ≠ block.instruction := by
  rw [colorToCode_eq]
  unfold codeNumber
  split_ifs <;> exact ⟨.of_all (by decide) (by decide), by intro block; cases block <;> decide⟩

section Arguments

variable [JavaScript]

theorem argument_conditional {block : RobotBlock} {value : JsValue} {argument : String}
    (reads : block.argument value = some argument) (conditional : block.isConditional = true) :
    ∃ color, argument = colorToCode color := by
  have colour : (Cast.toRgbColorList value).map colorToCode = some argument := by
    cases block <;> simp only [RobotBlock.isConditional, Bool.false_eq_true] at conditional <;> exact reads
  obtain ⟨color, _, code⟩ := Option.map_eq_some_iff.mp colour
  exact ⟨color, code.symm⟩

theorem call_decodes {block : RobotBlock} {value : JsValue} {argument : String}
    (reads : block.argument value = some argument) : (block.call argument).Decodes := by
  cases conditional : block.isConditional with
  | false =>
    simp only [RobotBlock.call, conditional, Bool.false_eq_true, if_false]
    trivial
  | true =>
    obtain ⟨color, rfl⟩ := argument_conditional reads conditional
    simp only [RobotBlock.call, conditional, if_true]
    have bounds := codeNumber_bounds color
    exact ⟨codeNumber color, parseInt_colorToCode color, by unfold intMax; omega⟩

end Arguments

section Delivery

variable [Graphemes]

/-- The message reaches the instructions subject only, and its subscriber then makes just the given call
    of the engine of an unfinished game. -/
structure Delivers (message : String) (call : Call) : Prop where
  published : ∀ s, (userContentController message).run s =
    .ok () { s with instructionsBehaviourSubject := s.instructionsBehaviourSubject ++ [message] }
  performed : ∀ (l : DataLevel) (c : GridWalk.Cell) (s : GameSession) (later : List String), l.Playable →
    s.engineAR.Safe l c → s.engineAR.isFinished = false → s.instructionsBehaviourSubject = message :: later →
      ∃ e s', (EngineAR.performCall call).run s.engineAR = .ok () e ∧ consumeInstruction.run s = .ok () s' ∧
        s'.engineAR = { e with status := e.status ++ [""] } ∧ s'.instructionsBehaviourSubject = later ∧
        s'.eventsBehaviourSubject = s.eventsBehaviourSubject

theorem published_iff (message : String) :
    (∀ s, (userContentController message).run s =
      .ok () { s with instructionsBehaviourSubject := s.instructionsBehaviourSubject ++ [message] }) ↔
    ∃ block : RobotBlock, at? (split message ' ') 1 = some block.instruction := by
  constructor
  · intro published
    have here := published { engineAR := EngineAR.started EngineAR.shortLevel [] ⟨0, 0⟩ }
    by_cases blank : split message ' ' = []
    · simp [run_userContentController_blank blank] at here
    · cases second : at? (split message ' ') 1 with
      | none => simp [run_userContentController_short blank second] at here
      | some name =>
        by_cases instruction : name ∈ possibleInstructions <;> by_cases event : name ∈ possibleEvents <;>
          simp [run_userContentController_named second, instruction, event] at here
        obtain ⟨block, rfl⟩ := RobotBlock.exists_of_mem instruction event
        exact ⟨block, rfl⟩
  · intro named s
    obtain ⟨block, second⟩ := named
    obtain ⟨instruction, event⟩ := block.instruction_mem
    simp [run_userContentController_named second, instruction, event]

theorem delivers_of_tokens {message : String} {block : RobotBlock} {argument : String}
    (second : at? (split message ' ') 1 = some block.instruction)
    (third : block.isConditional = true → at? (split message ' ') 2 = some argument)
    (decodes : (block.call argument).Decodes) : Delivers message (block.call argument) := by
  refine ⟨(published_iff message).mpr ⟨block, second⟩, ?_⟩
  intro l c s later playable safe active queue
  obtain ⟨e, ran⟩ := run_call_ok playable safe active decodes
  have bounds := (at?_isSome_iff (split message ' ') 1).mp (by rw [second]; rfl)
  obtain ⟨name, first⟩ := at?_of_bounds (Int.le_refl 0) (show 0 < ((split message ' ').length : Int) by omega)
  obtain ⟨glowing, glowed, carried⟩ :=
    run_carryOut first { s with instructionsBehaviourSubject := later }
  rw [run_instruct second third, ran] at carried
  have consumed := run_consumeInstruction queue (split_ne_nil second)
  rw [if_neg (by simp [active]), carried] at consumed
  exact ⟨e, _, ran, consumed, rfl, rfl, rfl⟩

theorem Delivers.run_instruct {message : String} {call : Call} (delivers : Delivers message call) (type : Int) :
    ∃ e e', (EngineAR.performCall call).run (onTile type) = .ok () e ∧
      (instruct (split message ' ')).run (onTile type) = .ok () e' ∧ e'.playerController = e.playerController := by
  obtain ⟨block, second⟩ := (published_iff message).mp delivers.published
  have bounds := (at?_isSome_iff (split message ' ') 1).mp (by rw [second]; rfl)
  obtain ⟨name, first⟩ := at?_of_bounds (Int.le_refl 0) (show 0 < ((split message ' ').length : Int) by omega)
  obtain ⟨e, s', called, consumed, engine, _⟩ := delivers.performed (oneTile type) ⟨0, 0⟩
    { engineAR := onTile type, instructionsBehaviourSubject := [message] } [] (oneTile_playable type)
    (onTile_safe type) rfl rfl
  obtain ⟨glowing, glowed, carried⟩ := run_carryOut first
    { engineAR := onTile type, instructionsBehaviourSubject := [] }
  have unfinished : (onTile type).isFinished = false := rfl
  rw [run_consumeInstruction rfl (split_ne_nil second), if_neg (by simp [unfinished]), carried] at consumed
  cases instructed : (instruct (split message ' ')).run (onTile type) with
  | error trap e' =>
    simp only [instructed] at consumed
    cases consumed
  | ok _ e' =>
    simp only [instructed] at consumed
    cases consumed
    have players := congrArg EngineAR.playerController engine
    exact ⟨e, e', called, rfl, players⟩

theorem Delivers.commands {message : String} {m : Motion} (delivers : Delivers message (.plain m)) (type : Int) :
    ∃ e, (instruct (split message ' ')).run (onTile type) = .ok () e ∧ e.playerController = [m.command] := by
  obtain ⟨e, e', called, instructed, same⟩ := delivers.run_instruct type
  obtain ⟨e₁, ran, commands⟩ := run_performMotion_onTile type m
  rw [EngineAR.performCall, ran] at called
  cases called
  exact ⟨e', instructed, same.trans commands⟩

theorem Delivers.same_block {message : String} {block other : RobotBlock} {argument : String}
    (delivers : Delivers message (block.call argument)) (plain : block.isConditional = false)
    (second : at? (split message ' ') 1 = some other.instruction) : other = block := by
  have call : block.call argument = .plain block.motion := by simp [RobotBlock.call, plain]
  rw [call] at delivers
  cases kind : other.isConditional with
  | false =>
    obtain ⟨e, instructed, commands⟩ := delivers.commands 0
    obtain ⟨e', ran, commands'⟩ := run_performMotion_onTile 0 other.motion
    rw [@GameSession.run_instruct _ _ argument second (by simp [kind])] at instructed
    simp only [RobotBlock.call, kind, EngineAR.performCall, Bool.false_eq_true, if_false, ran] at instructed
    cases instructed
    rw [commands'] at commands
    revert commands plain kind
    cases block <;> cases other <;> decide
  | true =>
    cases third : at? (split message ' ') 2 with
    | none =>
      obtain ⟨e, instructed, _⟩ := delivers.commands 0
      rw [run_instruct_missing second kind third] at instructed
      cases instructed
    | some code =>
      obtain ⟨type, idle⟩ := conditional_idle other.motion code
      obtain ⟨e, instructed, commands⟩ := delivers.commands type
      rw [GameSession.run_instruct second fun _ => third] at instructed
      simp only [RobotBlock.call, kind, if_true] at instructed
      rw [idle e instructed] at commands
      cases commands

/-- A run reaches both subjects and resets the level, a stop reaches the events subscriber only and stops it. -/
structure RunsAndStops : Prop where
  runPublished : ∀ s, (userContentController "00 run").run s =
    .ok () { s with
      instructionsBehaviourSubject := s.instructionsBehaviourSubject ++ ["00 run"]
      eventsBehaviourSubject := s.eventsBehaviourSubject ++ ["00 run"] }
  runs : ∀ s later, s.instructionsBehaviourSubject = "00 run" :: later →
    ∃ s', consumeInstruction.run s = .ok () s' ∧ s'.instructionsBehaviourSubject = later ∧
      s'.engineAR = { s.engineAR.restarted with status := s.engineAR.restarted.status ++ [""] }
  stopPublished : ∀ s, (userContentController "00 stop").run s =
    .ok () { s with eventsBehaviourSubject := s.eventsBehaviourSubject ++ ["00 stop"] }
  stops : ∀ s later, s.eventsBehaviourSubject = "00 stop" :: later →
    consumeEvent.run s = .ok () { s with eventsBehaviourSubject := later, engineAR := s.engineAR.stopped }

theorem runsAndStops : RunsAndStops := by
  have zeros : Word "00" := .of_all (by decide) (by decide)
  have runWord : Word "run" := .of_all (by decide) (by decide)
  have stopWord : Word "stop" := .of_all (by decide) (by decide)
  have run : split "00 run" ' ' = ["00", "run"] := zeros.split_pair runWord
  have stop : split "00 stop" ' ' = ["00", "stop"] := zeros.split_pair stopWord
  have isRun : IsRun "00 run" := by
    unfold IsRun
    rw [run]
    rfl
  have isStop : IsStop "00 stop" := by
    unfold IsStop
    rw [stop]
    rfl
  refine ⟨?_, ?_, ?_, fun s later queue => run_consumeEvent_stop queue isStop⟩
  · intro s
    simp [userContentController, -bind_pure_comp, EStateM.run_bind, run, run_subscript_of_some
      (show at? ["00", "run"] 1 = some "run" from rfl), possibleInstructions, possibleEvents]
  · intro s later queue
    have first : at? (split "00 run" ' ') 0 = some "00" := by
      rw [run]
      rfl
    obtain ⟨glowing, glowed, carried⟩ := run_carryOut first { s with instructionsBehaviourSubject := later }
    have consumed := run_consumeInstruction queue (split_ne_nil isRun)
    rw [if_neg (fun both => both.2 isRun), carried, run_instruct_run isRun] at consumed
    exact ⟨_, consumed, rfl, rfl⟩
  · intro s
    simp [userContentController, -bind_pure_comp, EStateM.run_bind, stop, run_subscript_of_some
      (show at? ["00", "stop"] 1 = some "stop" from rfl), possibleInstructions, possibleEvents]

/-- The spaces around the name of the instruction separate it, or the argument makes up for it: its first free
    word is the name again. -/
def Separates (block : RobotBlock) (id argument : String) : Prop :=
  if endsPrepended id then
    at? (split argument ' ') (if startsExtending argument then 1 else 0) = some block.instruction
  else startsExtending argument = false

theorem second_of_joined {id argument : String} {block : RobotBlock} (nonempty : id ≠ "")
    (spaceless : ' ' ∉ id.toList) (joined : endsPrepended id = true) :
    at? (split (instructionMessage id block.instruction argument) ' ') 1 =
      at? (split argument ' ') (if startsExtending argument then 1 else 0) := by
  obtain ⟨piece, parts⟩ := @split_joined_first _ id _ argument nonempty spaceless block.instruction_word joined
  unfold instructionMessage
  rw [parts]
  cases startsExtending argument with
  | false => rfl
  | true => cases split argument ' ' <;> rfl

variable [JavaScript]

theorem second_of_conditional {id argument : String} {block : RobotBlock} {value : JsValue} (nonempty : id ≠ "")
    (spaceless : ' ' ∉ id.toList) (reads : block.argument value = some argument)
    (conditional : block.isConditional = true) (joined : endsPrepended id = true) (other : RobotBlock) :
    at? (split (instructionMessage id block.instruction argument) ' ') 1 ≠ some other.instruction := by
  obtain ⟨color, rfl⟩ := argument_conditional reads conditional
  obtain ⟨word, noName⟩ := colorToCode_word color
  rw [second_of_joined nonempty spaceless joined, word.not_startsExtending, word.split]
  intro same
  exact noName other (Option.some.inj same)

theorem delivers_of_alone {id argument : String} {block : RobotBlock} {value : JsValue} (nonempty : id ≠ "")
    (spaceless : ' ' ∉ id.toList) (reads : block.argument value = some argument) (plain : endsPrepended id = false)
    (alone : startsExtending argument = false) :
    Delivers (instructionMessage id block.instruction argument) (block.call argument) := by
  have parts := split_three_parts nonempty spaceless block.instruction_word plain alone
  apply delivers_of_tokens _ _ (call_decodes reads)
  · rw [instructionMessage, parts]
    rfl
  · intro conditional
    obtain ⟨color, rfl⟩ := argument_conditional reads conditional
    rw [instructionMessage, parts, (colorToCode_word color).1.split]
    rfl

theorem delivers_iff {id argument : String} {block : RobotBlock} {value : JsValue} (nonempty : id ≠ "")
    (spaceless : ' ' ∉ id.toList) (reads : block.argument value = some argument) :
    Delivers (instructionMessage id block.instruction argument) (block.call argument) ↔
      Separates block id argument := by
  cases joined : endsPrepended id with
  | false =>
    simp only [Separates, joined, Bool.false_eq_true, if_false]
    constructor
    · intro delivers
      obtain ⟨other, second⟩ := (published_iff _).mp delivers.published
      by_contra starts
      rw [Bool.not_eq_false] at starts
      obtain ⟨more, later, parts⟩ := split_joined_rest nonempty spaceless block.instruction_word joined starts
      rw [instructionMessage, parts] at second
      have name : block.instruction ++ " " ++ more = other.instruction := Option.some.inj second
      apply other.instruction_word.spaceless
      rw [← name]
      simp
    · intro alone
      exact delivers_of_alone nonempty spaceless reads joined alone
  | true =>
    have second : at? (split (instructionMessage id block.instruction argument) ' ') 1 = _ :=
      second_of_joined nonempty spaceless joined
    simp only [Separates, joined, if_true, ← second]
    cases conditional : block.isConditional with
    | false =>
      constructor
      · intro delivers
        obtain ⟨other, named⟩ := (published_iff _).mp delivers.published
        rw [named, delivers.same_block conditional named]
      · intro named
        exact delivers_of_tokens named (by simp [conditional]) (call_decodes reads)
    | true =>
      have unnamed := second_of_conditional nonempty spaceless reads conditional joined
      constructor
      · intro delivers
        obtain ⟨other, named⟩ := (published_iff _).mp delivers.published
        exact absurd named (unnamed other)
      · intro named
        exact absurd named (unnamed block)

def Understood (id : String) (block : RobotBlock) (value : JsValue) : Prop :=
  ∀ argument message, block.argument value = some argument → block.message id value = some message →
    Delivers message (block.call argument) ∧ RunsAndStops

/-- The message that a block posts is understood exactly if its spaces separate its parts. -/
theorem understood_iff {id : String} (nonempty : id ≠ "") (spaceless : ' ' ∉ id.toList) (block : RobotBlock)
    (value : JsValue) :
    Understood id block value ↔
      ∀ argument, block.argument value = some argument → Separates block id argument := by
  constructor
  · intro understood argument reads
    have posts : block.message id value = some (instructionMessage id block.instruction argument) := by
      rw [RobotBlock.message_eq, reads]
      rfl
    exact (delivers_iff nonempty spaceless reads).mp (understood argument _ reads posts).1
  · intro separates argument message reads posts
    rw [RobotBlock.message_eq, reads] at posts
    cases posts
    exact ⟨(delivers_iff nonempty spaceless reads).mpr (separates argument reads), runsAndStops⟩

end Delivery

local instance : Graphemes := .marks

local instance : JavaScript := .texts

theorem understood_ten_steps : Understood "b1" .moveSteps (.text "10") := by
  apply (understood_iff (by decide) (by decide) _ _).mpr
  intro argument reads
  cases reads
  unfold Separates
  decide

/-- The argument begins with a combining mark, which the space before it takes up. -/
theorem mark_not_understood :
    ¬ ∀ id, id ≠ "" → ' ' ∉ id.toList → ∀ block value, Understood id block value := by
  intro understood
  have ten := understood "b1" (by decide) (by decide) .moveSteps (.text "\u0301") _ _ rfl rfl
  obtain ⟨block, second⟩ := (published_iff _).mp ten.1.published
  revert second
  cases block <;> decide

end GameSession

end ArRobotCode
