import Mathlib.Data.List.ReduceOption
import ArRobotCode.Game.Play
import ArRobotCode.Game.Protocol

namespace ArRobotCode

open Swift Trapping Scratch

/-- What the instructions subscriber carries out: everything but a stop. -/
def Operation.isInstruction : Operation → Bool
  | .call _ | .resetLevel => true
  | .stopLevel => false

theorem Scratch.RobotBlock.instruction_injective {block other : RobotBlock}
    (same : block.instruction = other.instruction) : block = other := by
  revert same
  cases block <;> cases other <;> decide

namespace GameSession

theorem instruction_ne (block : RobotBlock) : block.instruction ≠ "run" ∧ block.instruction ≠ "stop" := by
  cases block <;> decide

theorem possible_spaceless {name : String} (possible : name ∈ possibleInstructions ∨ name ∈ possibleEvents) :
    ' ' ∉ name.toList := by
  have all : ∀ name ∈ possibleInstructions ++ possibleEvents, ' ' ∉ name.toList := by decide
  exact all name (List.mem_append.mpr possible)

section Session

variable [Graphemes]

/-- What the game screen makes of a message: a run, a stop, a call, or nothing where it is blank or no subject takes it
    up. -/
inductive Means : String → Option Operation → Prop where
  | run {message : String} (isRun : IsRun message) : Means message (some .resetLevel)
  | stop {message : String} (isStop : IsStop message) : Means message (some .stopLevel)
  | call {message argument : String} {block : RobotBlock}
      (second : at? (split message ' ') 1 = some block.instruction)
      (third : block.isConditional = true → at? (split message ' ') 2 = some argument) :
      Means message (some (.call (block.call argument)))
  | ignored {message name : String} (second : at? (split message ' ') 1 = some name)
      (noInstruction : name ∉ possibleInstructions) (noEvent : name ∉ possibleEvents) : Means message none
  | blank {message : String} (blank : split message ' ' = []) : Means message none

theorem Means.second {message : String} {order : Option Operation} (meant : Means message order) :
    (order = none ∧ split message ' ' = []) ∨ ∃ name, at? (split message ' ') 1 = some name := by
  cases meant with
  | run isRun => exact .inr ⟨_, isRun⟩
  | stop isStop => exact .inr ⟨_, isStop⟩
  | call second third => exact .inr ⟨_, second⟩
  | ignored second noInstruction noEvent => exact .inr ⟨_, second⟩
  | blank blank => exact .inl ⟨rfl, blank⟩

theorem second_of_blank {message : String} (blank : split message ' ' = []) : at? (split message ' ') 1 = none := by
  rw [blank]
  rfl

theorem Means.isStop_iff {message : String} {order : Option Operation} (meant : Means message order) :
    IsStop message ↔ order = some .stopLevel := by
  unfold IsStop
  cases meant with
  | run isRun => simp [show at? (split message ' ') 1 = some "run" from isRun]
  | stop isStop => simp [show at? (split message ' ') 1 = some "stop" from isStop]
  | @call argument block second third =>
    have other : block.instruction ≠ "stop" := by cases block <;> decide
    simp [second, other]
  | ignored second noInstruction noEvent =>
    simp only [second, Option.some.injEq, reduceCtorEq, iff_false]
    intro isStop
    exact noEvent (by simp [isStop, possibleEvents])
  | blank blank => simp [second_of_blank blank]

theorem Means.unique {message : String} {order order' : Option Operation} (one : Means message order)
    (two : Means message order') : order = order' := by
  cases one with
  | run isRun =>
    have name : at? (split message ' ') 1 = some "run" := isRun
    cases two with
    | run => rfl
    | stop isStop => simp [IsStop, name] at isStop
    | call second third => simp [name, (instruction_ne _).1.symm] at second
    | ignored second noInstruction noEvent =>
      cases name.symm.trans second
      exact absurd (by decide) noEvent
    | blank blank => cases name.symm.trans (second_of_blank blank)
  | stop isStop =>
    have name : at? (split message ' ') 1 = some "stop" := isStop
    cases two with
    | run isRun => simp [IsRun, name] at isRun
    | stop => rfl
    | call second third => simp [name, (instruction_ne _).2.symm] at second
    | ignored second noInstruction noEvent =>
      cases name.symm.trans second
      exact absurd (by decide) noEvent
    | blank blank => cases name.symm.trans (second_of_blank blank)
  | @call argument block second third =>
    cases two with
    | run isRun => simp [IsRun, second, (instruction_ne block).1] at isRun
    | stop isStop => simp [IsStop, second, (instruction_ne block).2] at isStop
    | @call argument' block' second' third' =>
      obtain rfl := RobotBlock.instruction_injective (Option.some.inj (second.symm.trans second'))
      cases conditional : block.isConditional with
      | false => simp [RobotBlock.call, conditional]
      | true => rw [Option.some.inj ((third conditional).symm.trans (third' conditional))]
    | ignored second' noInstruction noEvent =>
      cases second.symm.trans second'
      exact absurd block.instruction_mem.1 noInstruction
    | blank blank => cases second.symm.trans (second_of_blank blank)
  | @ignored name second noInstruction noEvent =>
    cases two with
    | run isRun =>
      cases second.symm.trans isRun
      exact absurd (by decide) noEvent
    | stop isStop =>
      cases second.symm.trans isStop
      exact absurd (by decide) noEvent
    | @call argument block second' third =>
      cases second.symm.trans second'
      exact absurd block.instruction_mem.1 noInstruction
    | ignored | blank => rfl
  | blank blank =>
    have none := second_of_blank blank
    cases two with
    | run isRun => cases none.symm.trans isRun
    | stop isStop => cases none.symm.trans isStop
    | call second third => cases none.symm.trans second
    | ignored | blank => rfl

theorem meanings_prefix {messages more : List String} {orders whole : List (Option Operation)}
    (first : List.Forall₂ Means messages orders) (all : List.Forall₂ Means (messages ++ more) whole) :
    orders <+: whole := by
  induction first generalizing whole with
  | nil => exact List.nil_prefix
  | cons here _ ih =>
    cases all with
    | cons here' rest =>
      rw [here.unique here']
      exact List.prefix_cons_inj _ |>.mpr (ih rest)

def Instructs (message : String) (op : Operation) : Prop := op.isInstruction = true ∧ Means message (some op)

theorem Instructs.second {message : String} {op : Operation} (instructs : Instructs message op) :
    ∃ name, at? (split message ' ') 1 = some name := by
  rcases instructs.2.second with ⟨none, _⟩ | second
  · cases none
  · exact second

theorem run_post_meant {message : String} {order : Option Operation} (meant : Means message order) (s : GameSession) :
    (userContentController message).run s = .ok () { s with
      instructionsBehaviourSubject := s.instructionsBehaviourSubject ++
        if order.any Operation.isInstruction then [message] else []
      eventsBehaviourSubject := s.eventsBehaviourSubject ++
        if order = some .resetLevel ∨ order = some .stopLevel then [message] else [] } := by
  cases meant with
  | run isRun => simp [run_userContentController_named isRun, possibleInstructions, possibleEvents,
      Operation.isInstruction]
  | stop isStop => simp [run_userContentController_named isStop, possibleInstructions, possibleEvents,
      Operation.isInstruction]
  | @call argument block second third =>
    obtain ⟨instruction, event⟩ := block.instruction_mem
    simp [run_userContentController_named second, instruction, event, Operation.isInstruction]
  | ignored second noInstruction noEvent =>
    simp [run_userContentController_named second, noInstruction, noEvent]
  | blank blank => simp [run_userContentController_blank blank]

theorem split_blank : split "" ' ' = [] := by simp [split, splitFrom]

theorem run_consumeInstruction_initial {s : GameSession} {later : List String}
    (queue : s.instructionsBehaviourSubject = "" :: later) :
    consumeInstruction.run s = .ok () { s with instructionsBehaviourSubject := later } := by
  simp [consumeInstruction, -bind_pure_comp, EStateM.run_bind, queue, split_blank]

theorem run_instruct_meant {message : String} {op : Operation} (instructs : Instructs message op) (e : EngineAR) :
    (instruct (split message ' ')).run e = (EngineAR.perform op).run e := by
  obtain ⟨kind, meant⟩ := instructs
  cases meant with
  | run isRun => exact run_instruct_run isRun e
  | stop isStop => cases kind
  | call second third => exact run_instruct second third e

theorem run_consumeInstruction_meant {message : String} {op : Operation} (instructs : Instructs message op)
    {l : DataLevel} {start : GridWalk.Cell} {p p' : Play} (playable : l.Playable) {s : GameSession}
    (shows : s.engineAR.Shows l start p) (performed : p.perform l start op = some p') {later : List String}
    (queue : s.instructionsBehaviourSubject = message :: later) :
    ∃ s', consumeInstruction.run s = .ok () s' ∧ s'.engineAR.Shows l start p' ∧
      s'.instructionsBehaviourSubject = later ∧ s'.eventsBehaviourSubject = s.eventsBehaviourSubject := by
  obtain ⟨name, second⟩ := instructs.second
  have consumed := run_consumeInstruction queue (split_ne_nil second)
  have agrees := EngineAR.simulates_play playable start s.engineAR p op op shows rfl
  rw [performed] at agrees
  obtain ⟨e, ran, shows'⟩ := agrees
  by_cases ignored : s.engineAR.isFinished = true ∧ ¬ IsRun message
  · rw [if_pos ignored, second] at consumed
    refine ⟨_, consumed, ?_, rfl, rfl⟩
    obtain ⟨kind, meant⟩ := instructs
    cases meant with
    | run isRun => exact absurd isRun ignored.2
    | stop isStop => cases kind
    | call =>
      have stays := EngineAR.run_performCall_finished ignored.1
      rw [show EngineAR.perform _ = EngineAR.performCall _ from rfl, stays] at ran
      cases ran
      exact shows'
  · have bounds := (at?_isSome_iff (split message ' ') 1).mp (by rw [second]; rfl)
    obtain ⟨block, first⟩ := at?_of_bounds (Int.le_refl 0) (show 0 < ((split message ' ').length : Int) by omega)
    obtain ⟨glowing, glowed, carried⟩ := run_carryOut first { s with instructionsBehaviourSubject := later }
    rw [run_instruct_meant instructs, ran] at carried
    rw [if_neg ignored, carried] at consumed
    exact ⟨_, consumed, shows'.setStatus _, rfl, rfl⟩

/-- The operations `ops` of the engine are the instructions said so far in their order, less those still to be heard,
    among as many stops as have been heard. -/
structure Told (l : DataLevel) (start : GridWalk.Cell) (begun : Play) (orders : List (Option Operation))
    (ops : List Operation) (s : GameSession) : Prop where
  shows : ∃ p, ops.foldlM (Play.perform l start) begun = some p ∧ s.engineAR.Shows l start p
  instructions : ∃ pending, orders.reduceOption.filter (·.isInstruction) = ops.filter (·.isInstruction) ++ pending ∧
    List.Forall₂ Instructs (s.instructionsBehaviourSubject.filter (· ≠ "")) pending
  stops : orders.count (some .stopLevel) = ops.count .stopLevel + s.eventsBehaviourSubject.countP (IsStop ·)
  events : ∀ m ∈ s.eventsBehaviourSubject, m = "" ∨ ∃ order, Means m order

section Steps

variable {l : DataLevel} {start : GridWalk.Cell} {begun : Play} {orders : List (Option Operation)}
  {ops : List Operation} {s : GameSession}

theorem Told.post (told : Told l start begun orders ops s) {message : String} {order : Option Operation}
    (meant : Means message order) :
    ∃ s', (userContentController message).run s = .ok () s' ∧ Told l start begun (orders ++ [order]) ops s' := by
  obtain ⟨shows, ⟨pending, inOrder, heard⟩, stops, events⟩ := told
  refine ⟨_, run_post_meant meant s, shows, ?_, ?_, ?_⟩
  · cases order with
    | none =>
      exact ⟨pending, by simpa [List.reduceOption_append, List.reduceOption] using inOrder, by simpa using heard⟩
    | some op =>
      cases kind : op.isInstruction with
      | false => exact ⟨pending, by simpa [List.reduceOption_append, List.reduceOption, kind] using inOrder,
          by simpa [kind] using heard⟩
      | true =>
        have instructs : Instructs message op := ⟨kind, meant⟩
        have nonempty : message ≠ "" := by
          intro blank
          obtain ⟨name, second⟩ := instructs.second
          cases (second_of_blank (by rw [blank, split_blank])).symm.trans second
        refine ⟨pending ++ [op], ?_, ?_⟩
        · simp [List.reduceOption, kind, ← List.append_assoc, ← inOrder]
        · simp only [Option.any_some, kind, if_true, List.filter_append]
          apply List.rel_append heard
          simpa [nonempty] using instructs
  · have isStop := meant.isStop_iff
    by_cases stop : order = some .stopLevel
    · simp [stop, isStop.mpr stop, stops, Nat.add_assoc]
    · by_cases run : order = some .resetLevel <;> simp [run, stop, mt isStop.mp stop, stops, List.countP_append]
  · intro m member
    rcases List.mem_append.mp member with old | new
    · exact events m old
    · split_ifs at new
      · cases List.mem_singleton.mp new
        exact .inr ⟨order, meant⟩
      · cases new

theorem Told.consumeEvent (told : Told l start begun orders ops s) :
    ∃ s' more, consumeEvent.run s = .ok () s' ∧ Told l start begun orders (ops ++ more) s' := by
  obtain ⟨⟨p, played, shows⟩, ⟨pending, inOrder, heard⟩, stops, events⟩ := told
  cases queue : s.eventsBehaviourSubject with
  | nil =>
    refine ⟨s, [], by simp [GameSession.consumeEvent, queue], ?_⟩
    rw [List.append_nil]
    exact ⟨⟨p, played, shows⟩, ⟨pending, inOrder, heard⟩, stops, events⟩
  | cons event later =>
    rw [queue] at events stops
    have later' : ∀ m ∈ later, m = "" ∨ ∃ order, Means m order := fun m member =>
      events m (List.mem_cons_of_mem _ member)
    have words : split event ' ' = [] ∨ ∃ name, at? (split event ' ') 1 = some name := by
      rcases events event List.mem_cons_self with rfl | ⟨order, meant⟩
      · exact .inl split_blank
      · exact meant.second.imp_left And.right
    rcases words with blank | ⟨name, second⟩
    · refine ⟨_, [], run_consumeEvent_blank queue blank, ?_⟩
      rw [List.append_nil]
      exact ⟨⟨p, played, shows⟩, ⟨pending, inOrder, heard⟩,
        by simpa [IsStop, second_of_blank blank] using stops, later'⟩
    · by_cases isStop : IsStop event
      · refine ⟨_, [.stopLevel], run_consumeEvent_stop queue isStop, ⟨p.stop, ?_, shows.stopped⟩,
          ⟨pending, ?_, heard⟩, ?_, later'⟩
        · rw [List.foldlM_append, played]
          rfl
        · simpa [Operation.isInstruction] using inOrder
        · simp only [stops, List.countP_cons, isStop, List.count_append]
          simp [Nat.add_assoc, Nat.add_comm]
      · have notStop : name ≠ "stop" := fun same => isStop (by rw [IsStop, second, same])
        refine ⟨_, [], run_consumeEvent_named queue second, ?_⟩
        rw [List.append_nil]
        refine ⟨⟨p, played, ?_⟩, ⟨pending, inOrder, heard⟩, by simpa [isStop] using stops, later'⟩
        simpa only [notStop, if_false] using shows

theorem Told.consumeInstruction (playable : l.Playable) (told : Told l start begun orders ops s)
    (decodes : ∀ call, some (.call call) ∈ orders → call.Decodes) :
    ∃ s' more, consumeInstruction.run s = .ok () s' ∧ Told l start begun orders (ops ++ more) s' := by
  obtain ⟨⟨p, played, shows⟩, ⟨pending, inOrder, heard⟩, stops, events⟩ := told
  cases queue : s.instructionsBehaviourSubject with
  | nil =>
    refine ⟨s, [], by simp [GameSession.consumeInstruction, queue], ?_⟩
    rw [List.append_nil]
    exact ⟨⟨p, played, shows⟩, ⟨pending, inOrder, heard⟩, stops, events⟩
  | cons message later =>
    rw [queue] at heard
    by_cases blank : message = ""
    · subst blank
      refine ⟨_, [], run_consumeInstruction_initial queue, ?_⟩
      rw [List.append_nil]
      exact ⟨⟨p, played, shows⟩, ⟨pending, inOrder, by simpa using heard⟩, stops, events⟩
    · rw [List.filter_cons_of_pos (by simpa using blank)] at heard
      cases heard with
      | @cons _ op _ pending instructs heard =>
        have listed : some op ∈ orders := by
          apply List.reduceOption_mem_iff.mp
          apply List.mem_of_mem_filter
          rw [inOrder]
          exact List.mem_append_right _ List.mem_cons_self
        have total : ∃ p', p.perform l start op = some p' := by
          cases op with
          | stopLevel => exact ⟨_, rfl⟩
          | resetLevel => exact ⟨_, rfl⟩
          | call c => exact p.call_isSome (decodes c listed)
        obtain ⟨p', performed⟩ := total
        obtain ⟨s', consumed, shows', queue', events'⟩ :=
          run_consumeInstruction_meant instructs playable shows performed queue
        have notStop : op ≠ .stopLevel := fun stop => by simp [stop, Instructs, Operation.isInstruction] at instructs
        refine ⟨s', [op], consumed, ⟨p', ?_, shows'⟩, ⟨pending, ?_, ?_⟩, ?_, ?_⟩
        · rw [List.foldlM_append, played]
          simp [performed]
        · simpa [instructs.1] using inOrder
        · rw [queue']
          exact heard
        · rw [events', stops]
          simp [notStop]
        · rw [events']
          exact events

theorem run_told (playable : l.Playable) {schedule : List SessionAction} {said : List (Option Operation)}
    (meant : List.Forall₂ Means (posted schedule) said)
    (decodes : ∀ call, some (.call call) ∈ orders ++ said → call.Decodes) (told : Told l start begun orders ops s) :
    ∃ s' more, (runAll perform schedule).run s = .ok () s' ∧ Told l start begun (orders ++ said) (ops ++ more) s' := by
  induction schedule generalizing orders ops s said with
  | nil =>
    cases meant
    refine ⟨s, [], rfl, ?_⟩
    rw [List.append_nil, List.append_nil]
    exact told
  | cons action schedule ih =>
    have earlier : ∀ call, some (.call call) ∈ orders → call.Decodes :=
      fun call member => decodes call (List.mem_append_left _ member)
    cases action with
    | post message =>
      rw [show posted (.post message :: schedule) = message :: posted schedule from rfl] at meant
      cases meant with
      | @cons _ order _ said here rest =>
        obtain ⟨s₁, ran, told₁⟩ := told.post here
        rw [show orders ++ order :: said = (orders ++ [order]) ++ said by simp] at decodes ⊢
        obtain ⟨s', more, ranRest, told'⟩ := ih rest decodes told₁
        exact ⟨s', more, runAll_cons_ok.mpr ⟨s₁, ran, ranRest⟩, told'⟩
    | consumeEvent =>
      obtain ⟨s₁, more₁, ran, told₁⟩ := told.consumeEvent
      obtain ⟨s', more, ranRest, told'⟩ := ih meant decodes told₁
      refine ⟨s', more₁ ++ more, runAll_cons_ok.mpr ⟨s₁, ran, ranRest⟩, ?_⟩
      rw [← List.append_assoc]
      exact told'
    | consumeInstruction =>
      obtain ⟨s₁, more₁, ran, told₁⟩ := told.consumeInstruction playable earlier
      obtain ⟨s', more, ranRest, told'⟩ := ih meant decodes told₁
      refine ⟨s', more₁ ++ more, runAll_cons_ok.mpr ⟨s₁, ran, ranRest⟩, ?_⟩
      rw [← List.append_assoc]
      exact told'

end Steps

theorem viewDidLoad_told {l : DataLevel} (playable : l.Playable) (player : List PlayerCommand) :
    ∃ start s₀, ((∃ t ∈ l.tiles, t.type = TypeOfTile.start.rawValue) → l.IsFirstStart start) ∧
      viewDidLoad l player = .ok s₀ ∧ Told l start (.begun start (player ++ [.reset])) [] [] s₀ := by
  obtain ⟨start, inside, built, first⟩ := EngineAR.init_started playable player
  refine ⟨start, { engineAR := (EngineAR.started l player start).restarted }, first, ?_, ?_⟩
  · simp [viewDidLoad, built, Bind.bind, Except.bind, pure, Except.pure]
  · refine ⟨⟨_, rfl, (EngineAR.started_shows inside).restarted⟩, ⟨[], rfl, by simp⟩, ?_, by simp⟩
    simp [IsStop, split_blank, at?]

/-- However posts and the turns of the two subscribers interleave, nothing traps, and the engine shows the game made up
    of the instructions heard so far, in the order in which they were said, and of the stops heard so far. -/
theorem session_interleaves {l : DataLevel} (playable : l.Playable) (player : List PlayerCommand) :
    ∃ start s₀, ((∃ t ∈ l.tiles, t.type = TypeOfTile.start.rawValue) → l.IsFirstStart start) ∧
      viewDidLoad l player = .ok s₀ ∧ ∀ schedule orders, List.Forall₂ Means (posted schedule) orders →
        (∀ call, some (.call call) ∈ orders → call.Decodes) →
          ∃ s ops, (runAll perform schedule).run s₀ = .ok () s ∧
            Told l start (.begun start (player ++ [.reset])) orders ops s := by
  obtain ⟨start, s₀, first, loaded, told⟩ := viewDidLoad_told playable player
  refine ⟨start, s₀, first, loaded, ?_⟩
  intro schedule orders meant decodes
  obtain ⟨s, ops, ran, told'⟩ := run_told playable meant decodes told
  exact ⟨s, ops, ran, told'⟩

section Messages

variable {id argument : String} {block : RobotBlock}

theorem means_call (word : Word id) (alone : startsExtending argument = false)
    (code : block.isConditional = true → Word argument) :
    Means (instructionMessage id block.instruction argument) (some (.call (block.call argument))) := by
  have parts := split_three_parts word.nonempty word.spaceless block.instruction_word word.not_endsPrepended alone
  refine .call ?_ fun conditional => ?_
  · rw [instructionMessage, parts]
    rfl
  · rw [instructionMessage, parts, (code conditional).split]
    rfl

theorem means_ignored (word : Word id) (joined : startsExtending argument = true) :
    Means (instructionMessage id block.instruction argument) none := by
  obtain ⟨more, later, parts⟩ := @split_joined_rest _ id _ argument word.nonempty word.spaceless block.instruction_word
    word.not_endsPrepended joined
  have spaced : ' ' ∈ (block.instruction ++ " " ++ more).toList := by simp
  refine .ignored (show at? (split (instructionMessage id block.instruction argument) ' ') 1 =
    some (block.instruction ++ " " ++ more) by rw [instructionMessage, parts]; rfl) ?_ ?_
  · exact fun possible => possible_spaceless (.inl possible) spaced
  · exact fun possible => possible_spaceless (.inr possible) spaced

theorem means_flag : Means "00 run" (some .resetLevel) := by
  have zeros : Word "00" := .of_all (by decide) (by decide)
  have run : Word "run" := .of_all (by decide) (by decide)
  refine .run ?_
  rw [IsRun, show "00 run" = "00" ++ " " ++ "run" from rfl, zeros.split_pair run]
  rfl

theorem means_stop : Means "00 stop" (some .stopLevel) := by
  have zeros : Word "00" := .of_all (by decide) (by decide)
  have stop : Word "stop" := .of_all (by decide) (by decide)
  refine .stop ?_
  rw [IsStop, show "00 stop" = "00" ++ " " ++ "stop" from rfl, zeros.split_pair stop]
  rfl

end Messages

end Session

local instance conversing : Graphemes := .marks

theorem session_interleaves_short :
    ∃ start s₀, viewDidLoad EngineAR.shortLevel [] = .ok s₀ ∧
      ∃ s ops, (runAll perform [.consumeInstruction, .post "00 run", .post (instructionMessage "b1" "turnRight" "90"),
        .consumeInstruction, .consumeEvent, .consumeInstruction]).run s₀ = .ok () s ∧
        Told EngineAR.shortLevel start (.begun start [.reset])
          [some .resetLevel, some (.call (.plain .turnRight))] ops s := by
  obtain ⟨start, s₀, _, loaded, interleaves⟩ := session_interleaves EngineAR.shortLevel_playable []
  have block : Word "b1" := .of_all (by decide) (by decide)
  have turn := @means_call _ "b1" "90" .turnRight block (by decide) nofun
  refine ⟨start, s₀, loaded, interleaves _ _ (.cons means_flag (.cons turn .nil)) ?_⟩
  intro call member
  simp only [List.mem_cons, Option.some.injEq, reduceCtorEq, List.not_mem_nil, or_false, false_or,
    Operation.call.injEq] at member
  rw [member]
  trivial

end GameSession

end ArRobotCode
