import ArRobotCode.Game.App

namespace ArRobotCode

open Swift Trapping Scratch

namespace Scratch.Script

def calls : Script → List Call
  | done => []
  | instruction _ block argument next => block.call argument :: calls next
  | repeatTimes _ times body next => (List.replicate times.toNat (calls body)).flatten ++ calls next
  | forever _ body next => (List.replicate 500 (calls body)).flatten ++ calls next

/-- No printed argument takes up the space before it. -/
def Separated [Graphemes] : Script → Prop
  | done => True
  | instruction _ _ argument next => startsExtending argument = false ∧ Separated next
  | repeatTimes _ _ body next => Separated body ∧ Separated next
  | forever _ body next => Separated body ∧ Separated next

def Orders [Graphemes] (order : String) (call : Call) : Prop :=
  ∃ (block : RobotBlock) (argument : String),
    order = block.order argument ∧ call = block.call argument ∧ startsExtending argument = false

theorem forall₂_flatten_replicate {α β : Type} {R : α → β → Prop} {as : List α} {bs : List β}
    (related : List.Forall₂ R as bs) (n : Nat) :
    List.Forall₂ R (List.replicate n as).flatten (List.replicate n bs).flatten := by
  induction n with
  | zero => exact .nil
  | succ n ih =>
    rw [List.replicate_succ, List.replicate_succ, List.flatten_cons, List.flatten_cons]
    exact List.rel_append related ih

theorem trace_calls [Graphemes] {script : Script} (separated : script.Separated) :
    List.Forall₂ Orders script.trace script.calls := by
  induction script with
  | done => exact .nil
  | instruction id block argument next ih => exact .cons ⟨block, argument, rfl, rfl, separated.1⟩ (ih separated.2)
  | repeatTimes id times body next ihBody ihNext =>
    exact List.rel_append (forall₂_flatten_replicate (ihBody separated.1) _) (ihNext separated.2)
  | forever id body next ihBody ihNext =>
    exact List.rel_append (forall₂_flatten_replicate (ihBody separated.1) _) (ihNext separated.2)

end Scratch.Script

namespace Scratch.RobotBlock

theorem order_parts {block other : RobotBlock} {argument argument' : String}
    (same : block.order argument = other.order argument') : block = other ∧ argument = argument' := by
  have lists := congrArg String.toList same
  simp only [order, String.toList_append, List.append_assoc] at lists
  obtain ⟨names, rest⟩ := parts_of_append block.instruction_word.spaceless other.instruction_word.spaceless lists
  exact ⟨instruction_injective (String.toList_injective names), String.toList_injective rest⟩

theorem order_ne_run (block : RobotBlock) (argument : String) : block.order argument ≠ "run" := by
  intro same
  have spaced : ' ' ∈ (block.order argument).toList := by simp [order]
  rw [same] at spaced
  revert spaced
  decide

end Scratch.RobotBlock

namespace App

theorem prefix_of_map_some {α : Type} {orders : List (Option α)} {program : List α}
    (first : orders <+: program.map some) : ∃ heard, orders = heard.map some ∧ heard <+: program := by
  obtain ⟨rest, shape⟩ := first
  obtain ⟨heard, later, whole, same, _⟩ := List.map_eq_append_iff.mp shape.symm
  exact ⟨heard, same.symm, later, whole.symm⟩

section Messages

variable [JavaScript]

theorem withoutToken_spoken {message : String} (spoken : Spoken message) :
    (message = "00 run" ∧ withoutToken message = "run") ∨
      ∃ (entry : Option (Option BlockId)) (block : RobotBlock) (value : JsValue) (argument : String),
        block.argument value = some argument ∧
        message = instructionMessage (printedEntry entry) block.instruction argument ∧
        withoutToken message = block.order argument := by
  rcases spoken with rfl | ⟨entry, block, value, argument, reads, rfl⟩
  · exact .inl ⟨rfl, by decide⟩
  · refine .inr ⟨entry, block, value, argument, reads, rfl, ?_⟩
    rw [withoutToken_message fun c member => (printedEntry_ascii entry c member).2]
    rfl

variable [Graphemes]

theorem means_of_order {message order : String} {call : Call} (spoken : Spoken message)
    (without : withoutToken message = order) (stands : Script.Orders order call) :
    GameSession.Means message (some (.call call)) := by
  obtain ⟨block, argument, rfl, rfl, alone⟩ := stands
  rcases withoutToken_spoken spoken with ⟨_, run⟩ | ⟨entry, other, value, argument', reads, rfl, shape⟩
  · rw [run] at without
    exact absurd without.symm (block.order_ne_run argument)
  · rw [shape] at without
    obtain ⟨rfl, rfl⟩ := RobotBlock.order_parts without
    refine GameSession.means_call (printedEntry_word entry) alone fun conditional => ?_
    obtain ⟨color, rfl⟩ := GameSession.argument_conditional reads conditional
    exact (GameSession.colorToCode_word color).1

theorem means_of_run {message : String} (spoken : Spoken message) (without : withoutToken message = "run") :
    GameSession.Means message (some .resetLevel) := by
  rcases withoutToken_spoken spoken with ⟨rfl, _⟩ | ⟨entry, block, value, argument, _, rfl, shape⟩
  · exact GameSession.means_flag
  · rw [shape] at without
    exact absurd without (block.order_ne_run argument)

theorem means_of_orders {messages orders : List String} {calls : List Call}
    (spoken : ∀ m ∈ messages, Spoken m) (without : messages.map withoutToken = orders)
    (stand : List.Forall₂ Script.Orders orders calls) :
    List.Forall₂ GameSession.Means messages (calls.map fun call => some (.call call)) := by
  induction stand generalizing messages with
  | nil =>
    rw [List.map_eq_nil_iff.mp without]
    exact .nil
  | @cons order call orders calls here _ ih =>
    obtain ⟨message, later, rfl, first, rest⟩ := List.map_eq_cons_iff.mp without
    have spokenLater : ∀ m ∈ later, Spoken m := fun m member => spoken m (List.mem_cons_of_mem _ member)
    exact .cons (means_of_order (spoken message List.mem_cons_self) first here) (ih spokenLater rest)

end Messages

section Programs

variable [Graphemes] [JavaScript] {l : DataLevel} {start : GridWalk.Cell} {begun : Play}
  {orders flying : List (Option Operation)} {ops : List Operation} {app : App}

theorem Joined.carried (joined : Joined l start begun orders flying ops app) {program : List Operation}
    (noStop : ∀ op ∈ program, op.isInstruction = true) (said : orders ++ flying <+: program.map some) :
    ops <+: program ∧ (orders ++ flying = program.map some → app.inFlight = [] →
      app.session.instructionsBehaviourSubject = [] → ops = program) := by
  obtain ⟨heard, shape, part⟩ := prefix_of_map_some said
  obtain ⟨arrived, coming, whole, rfl, rfl⟩ := List.append_eq_map_iff.mp shape
  obtain ⟨pending, inOrder, heardLater⟩ := joined.told.instructions
  have instructs : ∀ op ∈ arrived, op.isInstruction = true := by
    intro op member
    apply noStop
    apply part.subset
    rw [whole]
    exact List.mem_append_left _ member
  have reduced : (arrived.map some).reduceOption = arrived := by
    simp [List.reduceOption]
  have ownStops : ops.count .stopLevel = 0 := by
    have stops := joined.told.stops
    have none : (arrived.map some).count (some Operation.stopLevel) = 0 := by
      rw [List.count_eq_zero]
      intro member
      obtain ⟨op, inside, same⟩ := List.mem_map.mp member
      cases same
      cases instructs _ inside
    omega
  have own : ops.filter (·.isInstruction) = ops := by
    rw [List.filter_eq_self]
    intro op member
    cases op with
    | stopLevel => exact absurd member (List.count_eq_zero.mp ownStops)
    | call c => rfl
    | resetLevel => rfl
  rw [reduced, List.filter_eq_self.mpr instructs, own] at inOrder
  refine ⟨?_, ?_⟩
  · obtain ⟨rest, full⟩ := part
    refine ⟨pending ++ (coming ++ rest), ?_⟩
    rw [← full, whole, inOrder]
    simp
  · intro all landed drained
    have noneFlying : coming = [] := by
      have flying := joined.inFlight
      rw [landed] at flying
      cases flying' : coming with
      | nil => rfl
      | cons op coming => simp [flying'] at flying
    have nonePending : pending = [] := by
      rw [drained] at heardLater
      cases heardLater
      rfl
    rw [noneFlying, List.map_nil, List.append_nil] at all
    have same := List.map_injective_iff.mpr (Option.some_injective _) all
    rw [← same, inOrder, nonePending, List.append_nil]

variable [Opcodes]

theorem said_prefix {script : Script} (separated : script.Separated) {vm vm' : Vm} {events earlier : List Vm.Event}
    (fresh : vm.posted = []) (part : earlier <+: events) (ran : (runAll Vm.perform events).run vm = .ok () vm')
    (posts : vm.Posts ("run" :: script.trace) vm') {said : List (Option Operation)}
    (meant : List.Forall₂ GameSession.Means (vm.after earlier).posted said) :
    said <+: (.resetLevel :: script.calls.map .call : List Operation).map some ∧
      (earlier = events → said = (.resetLevel :: script.calls.map .call : List Operation).map some) := by
  obtain ⟨later, rfl⟩ := part
  have last := Vm.after_of_run_ok ran
  rw [Vm.after_append] at last
  obtain ⟨more, grows, _⟩ := Vm.speaks_after later (vm.after earlier)
  obtain ⟨all, shape, spoken⟩ := Vm.speaks_after (earlier ++ later) vm
  rw [fresh, List.nil_append, Vm.after_append, last] at shape
  rw [last] at grows
  obtain ⟨messages, posted, without⟩ := posts.posted
  rw [fresh, List.nil_append] at posted
  rw [← shape, posted] at spoken
  obtain ⟨flag, rest, rfl, run, orders⟩ := List.map_eq_cons_iff.mp without
  have whole : List.Forall₂ GameSession.Means vm'.posted
      ((.resetLevel :: script.calls.map .call : List Operation).map some) := by
    rw [posted, List.map_cons, List.map_map]
    refine .cons (means_of_run (spoken flag List.mem_cons_self) run) ?_
    exact means_of_orders (fun m member => spoken m (List.mem_cons_of_mem _ member)) orders
      (Script.trace_calls separated)
  refine ⟨?_, ?_⟩
  · rw [grows] at whole
    exact GameSession.meanings_prefix meant whole
  · intro complete
    rw [List.self_eq_append_right.mp complete] at last
    rw [show vm.after earlier = vm' from last] at meant
    have begins := @GameSession.meanings_prefix _ vm'.posted [] said _ meant (by rw [List.append_nil]; exact whole)
    exact begins.eq_of_length (meant.length_eq.symm.trans whole.length_eq)

/-- The robot walks what the blocks say. A script is started once and the VM ticks, messages arrive and the subscribers
    take their turns in any order: at every moment the engine shows the game of a first part of the script's calls, and
    once all has been said and heard, which can always come to pass, the robot has gone along their path up to its first
    stop. -/
theorem program_played {script : Script} (exact : script.Exact) (separated : script.Separated) (playable : l.Playable)
    (player : List PlayerCommand) {project : Project} {world : Nat → Answer} {target : Nat} {hat : BlockId}
    (carries : (Vm.create project world).Carries target hat script) :
    ∃ steps start app₀, ((∃ t ∈ l.tiles, t.type = TypeOfTile.start.rawValue) → l.IsFirstStart start) ∧
      opened project world l player = .ok app₀ ∧ ∀ ticks : List (Nat × Nat), (∀ tick ∈ ticks, steps ≤ tick.1) →
        steps ≤ ticks.countP (1 ≤ ·.2) → ∀ actions, (∀ action ∈ actions, action ≠ .stopAllClick) →
          pageEvents actions <+: .greenFlag :: ticks.map (fun tick => .tick tick.1 tick.2) →
            ∃ app heard p, (runAll perform actions).run app₀ = .ok () app ∧
              heard <+: .resetLevel :: script.calls.map .call ∧
              heard.foldlM (Play.perform l start) (.begun start (player ++ [.reset])) = some p ∧
              app.session.engineAR.Shows l start p ∧
              (pageEvents actions = .greenFlag :: ticks.map (fun tick => .tick tick.1 tick.2) → app.inFlight = [] →
                app.session.instructionsBehaviourSubject = [] →
                  (Play.begun start (player ++ [.reset, .reset])).Follows l p (path l ⟨start, .up⟩ script.calls)) ∧
              ∃ more, (∀ action ∈ more, action = .deliver ∨ action = .consumeInstruction) ∧
                ∃ app', (runAll perform more).run app = .ok () app' ∧ app'.inFlight = [] ∧
                  app'.session.instructionsBehaviourSubject = [] := by
  obtain ⟨steps, completes⟩ := carries.completes exact
  obtain ⟨start, app₀, first, built, page, posted, joined⟩ := opened_joined playable player project world
  refine ⟨steps, start, app₀, first, built, ?_⟩
  intro ticks enough passes actions noStop part
  obtain ⟨vm', ranPage, _, posts⟩ := completes ticks enough passes
  obtain ⟨app, orders, flying, ops, ran, joined', page', same⟩ := run_joined playable actions joined
  have said := joined'.posted
  rw [same noStop (by rw [posted, page]; rfl), page', page] at said
  obtain ⟨begins, whole⟩ := said_prefix separated rfl part ranPage posts said
  have instructs : ∀ op ∈ (.resetLevel :: script.calls.map .call : List Operation), op.isInstruction = true := by
    intro op member
    rcases List.mem_cons.mp member with rfl | inside
    · rfl
    · obtain ⟨call, _, rfl⟩ := List.mem_map.mp inside
      rfl
  obtain ⟨carried, all⟩ := joined'.carried instructs begins
  obtain ⟨p, played, shows⟩ := joined'.told.shows
  refine ⟨app, ops, p, ran, carried, played, shows, ?_, joined'.drains playable⟩
  intro complete landed drained
  have decodes : ∀ call ∈ script.calls, call.Decodes := by
    intro call member
    apply joined'.decodes
    rw [whole complete]
    exact List.mem_map_of_mem (List.mem_cons_of_mem _ (List.mem_map_of_mem member))
  rw [all (whole complete) landed drained] at played
  have again : (Play.begun start (player ++ [.reset])).restart start = .begun start (player ++ [.reset, .reset]) := by
    simp [Play.restart, Play.begun]
  have ranCalls : script.calls.foldlM (Play.call l) (.begun start (player ++ [.reset, .reset])) = some p := by
    have restarted : (script.calls.map Operation.call).foldlM (Play.perform l start)
        ((Play.begun start (player ++ [.reset])).restart start) = some p := played
    rw [List.foldlM_map, again] at restarted
    exact restarted
  obtain ⟨p', walked, follows⟩ := Play.calls_follow_path (p := .begun start (player ++ [.reset, .reset])) playable
    script.calls rfl decodes
  cases ranCalls.symm.trans walked
  exact follows

end Programs

section Nested

local instance programGraphemes : Graphemes := .marks

local instance programJavaScript : JavaScript := .texts

attribute [local instance] Loops.instOpcodes

open Loops

/-- The whole run: the page ticks to the end of the script, then everything arrives and is heard. -/
theorem program_played_nested :
    ∃ start app₀ actions, opened (workspace nestedBlock) (fun _ => {}) EngineAR.shortLevel [] = .ok app₀ ∧
      ∃ app heard p, (runAll perform actions).run app₀ = .ok () app ∧ heard <+: .resetLevel :: nested.calls.map .call ∧
        heard.foldlM (Play.perform EngineAR.shortLevel start) (.begun start [.reset]) = some p ∧
        app.session.engineAR.Shows EngineAR.shortLevel start p ∧ app.inFlight = [] ∧
        app.session.instructionsBehaviourSubject = [] ∧
        (Play.begun start [.reset, .reset]).Follows EngineAR.shortLevel p
          (path EngineAR.shortLevel ⟨start, .up⟩ nested.calls) := by
  have carries : (Vm.create (workspace nestedBlock) fun _ => {}).Carries 0 hat nested :=
    ⟨rfl, hat_opcode, ⟨_, rfl, nested_laid⟩, rfl, nofun⟩
  have separated : nested.Separated := by
    simp only [nested, Script.Separated]
    decide
  obtain ⟨steps, start, app₀, _, built, played⟩ := @program_played _ _ EngineAR.shortLevel _ nested
    ⟨by decide, ⟨trivial, trivial⟩, trivial⟩ separated EngineAR.shortLevel_playable [] _ _ _ _ carries
  let ticks := List.replicate steps (steps, 1)
  have enough : ∀ tick ∈ ticks, steps ≤ tick.1 := fun tick member => by rw [List.eq_of_mem_replicate member]
  have passes : steps ≤ ticks.countP (1 ≤ ·.2) := by
    rw [List.countP_replicate]
    simp
  let events : List Vm.Event := .greenFlag :: ticks.map fun tick => .tick tick.1 tick.2
  have clicked : ∀ action ∈ events.map AppAction.page, action ≠ .stopAllClick := by
    intro action member
    obtain ⟨event, _, rfl⟩ := List.mem_map.mp member
    simp
  have part₁ : pageEvents (events.map .page) <+: events := by simp only [pageEvents_page, List.prefix_refl]
  obtain ⟨app₁, _, _, ran₁, _, _, _, _, more, only, app, ran₂, landed, drained⟩ := played ticks enough passes
    (events.map .page) clicked part₁
  have whole : pageEvents (events.map .page ++ more) = events := by
    rw [pageEvents_append, pageEvents_page, pageEvents_eq_nil only, List.append_nil]
  have unstopped : ∀ action ∈ events.map AppAction.page ++ more, action ≠ .stopAllClick := by
    intro action member
    rcases List.mem_append.mp member with first | later
    · exact clicked action first
    · rcases only action later with rfl | rfl <;> simp
  have ran := runAll_append_ok.mpr ⟨app₁, ran₁, ran₂⟩
  have part₂ : pageEvents (events.map .page ++ more) <+: events := by simp only [whole, List.prefix_refl]
  obtain ⟨app', heard, p, ran', part, folded, shows, complete, _⟩ := played ticks enough passes _ unstopped part₂
  cases ran.symm.trans ran'
  exact ⟨start, app₀, _, built, app, heard, p, ran, part, folded, shows, landed, drained,
    complete whole landed drained⟩

end Nested

end App

end ArRobotCode
