import ArRobotCode.Scratch.Posted
import ArRobotCode.Scratch.Refinement
import ArRobotCode.Game.Conversation

namespace ArRobotCode

open Swift Trapping Scratch

/-- The web page with its VM, the messages that it has posted, those of them that have not arrived yet, and the game
    screen. -/
structure App where
  page : Vm
  posted : List String := []
  inFlight : List String := []
  session : GameSession

inductive AppAction where
  | page (event : Vm.Event)
  | stopAllClick
  | deliver
  | consumeEvent
  | consumeInstruction

namespace App

def post (messages : List String) (app : App) : App :=
  { app with posted := app.posted ++ messages, inFlight := app.inFlight ++ messages }

section Actions

def onSession (x : Method GameSession Unit) : Method App Unit :=
  within (·.session) (fun s app => { app with session := s }) x

theorem run_onSession_ok {x : Method GameSession Unit} {app : App} {s : GameSession}
    (ran : x.run app.session = .ok () s) : (onSession x).run app = .ok () { app with session := s } := by
  rw [onSession, run_within, ran]

variable [Graphemes] [JavaScript] [Opcodes]

/-- A fault of the VM ends the event only: what was posted before it is on its way. -/
def pageEvent (event : Vm.Event) : Method App Unit := modify fun app =>
  let page := final (Vm.perform event) app.page
  { app.post (page.posted.drop app.page.posted.length) with page }

def handleStopAllClick : Method App Unit := do
  modify (post ["00 stop"])
  pageEvent .stopAll

def deliver : Method App Unit := do
  match (← get).inFlight with
  | [] => return
  | message :: later =>
    modify fun app => { app with inFlight := later }
    onSession (GameSession.userContentController message)

def perform : AppAction → Method App Unit
  | .page event => pageEvent event
  | .stopAllClick => handleStopAllClick
  | .deliver => deliver
  | .consumeEvent => onSession GameSession.consumeEvent
  | .consumeInstruction => onSession GameSession.consumeInstruction

def opened (project : Project) (world : Nat → Answer) (level : DataLevel) (player : List PlayerCommand) :
    Except Trap App := do
  return { page := .create project world, session := ← GameSession.viewDidLoad level player }

end Actions

section Meanings

variable [Graphemes] [JavaScript]

theorem means_of_spoken {message : String} (spoken : Spoken message) :
    ∃ order, GameSession.Means message order ∧ ∀ call, order = some (.call call) → call.Decodes := by
  rcases spoken with rfl | ⟨entry, block, value, argument, reads, rfl⟩
  · exact ⟨_, GameSession.means_flag, nofun⟩
  · have word := printedEntry_word entry
    cases joined : startsExtending argument with
    | true => exact ⟨none, GameSession.means_ignored word joined, nofun⟩
    | false =>
      refine ⟨_, GameSession.means_call word joined ?_, ?_⟩
      · intro conditional
        obtain ⟨color, rfl⟩ := GameSession.argument_conditional reads conditional
        exact (GameSession.colorToCode_word color).1
      · intro call same
        cases same
        exact GameSession.call_decodes reads

theorem means_all_of_spoken {messages : List String} (spoken : ∀ m ∈ messages, Spoken m) :
    ∃ orders, List.Forall₂ GameSession.Means messages orders ∧ ∀ call, some (.call call) ∈ orders → call.Decodes := by
  induction messages with
  | nil => exact ⟨[], .nil, by simp⟩
  | cons message messages ih =>
    obtain ⟨order, meant, decodes⟩ := means_of_spoken (spoken message List.mem_cons_self)
    obtain ⟨orders, rest, later⟩ := ih fun m member => spoken m (List.mem_cons_of_mem _ member)
    refine ⟨order :: orders, .cons meant rest, ?_⟩
    intro call member
    rcases List.mem_cons.mp member with same | inside
    · exact decodes call same.symm
    · exact later call inside

end Meanings

section Deliveries

variable [Graphemes] [JavaScript] {l : DataLevel} {start : GridWalk.Cell} {begun : Play}
  {orders flying : List (Option Operation)} {ops : List Operation} {app : App}

/-- What arrives comes from the VM, or is the stop of the controls. -/
def Uttered (message : String) : Prop := message = "00 stop" ∨ Spoken message

/-- The messages posted so far stand for `orders`, which have arrived, and `flying`, which are on their way. -/
structure Joined (l : DataLevel) (start : GridWalk.Cell) (begun : Play) (orders flying : List (Option Operation))
    (ops : List Operation) (app : App) : Prop where
  posted : List.Forall₂ GameSession.Means app.posted (orders ++ flying)
  uttered : ∀ message ∈ app.posted, Uttered message
  inFlight : List.Forall₂ GameSession.Means app.inFlight flying
  decodes : ∀ call, some (.call call) ∈ orders ++ flying → call.Decodes
  told : GameSession.Told l start begun orders ops app.session

theorem Joined.post (joined : Joined l start begun orders flying ops app) {messages : List String}
    {news : List (Option Operation)} (meant : List.Forall₂ GameSession.Means messages news)
    (uttered : ∀ message ∈ messages, Uttered message)
    (decodes : ∀ call, some (.call call) ∈ news → call.Decodes) :
    Joined l start begun orders (flying ++ news) ops (app.post messages) := by
  refine ⟨?_, ?_, List.rel_append joined.inFlight meant, ?_, joined.told⟩
  · rw [← List.append_assoc]
    exact List.rel_append joined.posted meant
  · intro message member
    exact (List.mem_append.mp member).elim (joined.uttered message) (uttered message)
  · intro call member
    rw [← List.append_assoc] at member
    rcases List.mem_append.mp member with old | new
    · exact joined.decodes call old
    · exact decodes call new

omit [JavaScript] in
theorem run_deliver_nil (landed : app.inFlight = []) : App.deliver.run app = .ok () app := by
  simp [App.deliver, landed]

omit [JavaScript] in
theorem run_deliver_cons {message : String} {later : List String} (queue : app.inFlight = message :: later) :
    App.deliver.run app =
      (App.onSession (GameSession.userContentController message)).run { app with inFlight := later } := by
  unfold App.deliver
  rw [EStateM.run_bind, EStateM.run_get]
  dsimp only
  rw [queue]
  dsimp only
  rw [EStateM.run_bind, EStateM.run_modify]

theorem Joined.deliver (joined : Joined l start begun orders flying ops app) :
    ∃ app' orders' flying', App.deliver.run app = .ok () app' ∧ Joined l start begun orders' flying' ops app' ∧
      app'.page = app.page ∧ app'.posted = app.posted := by
  obtain ⟨posted, uttered, inFlight, decodes, told⟩ := joined
  cases queue : app.inFlight with
  | nil =>
    exact ⟨app, orders, flying, run_deliver_nil queue, ⟨posted, uttered, inFlight, decodes, told⟩, rfl, rfl⟩
  | cons message later =>
    rw [queue] at inFlight
    cases inFlight with
    | @cons _ order _ flying meant rest =>
      obtain ⟨s', ran, told'⟩ := told.post meant
      have delivered := @run_onSession_ok _ { app with inFlight := later } s' ran
      refine ⟨{ app with inFlight := later, session := s' }, orders ++ [order], flying, ?_, ?_, rfl, rfl⟩
      · rw [run_deliver_cons queue]
        exact delivered
      · refine ⟨?_, uttered, rest, ?_, told'⟩
        · simpa using posted
        · simpa using decodes

omit [Graphemes] [JavaScript] in
theorem onSession_ok {x : Method GameSession Unit} {app' : App} (ran : (App.onSession x).run app = .ok () app') :
    ∃ s, x.run app.session = .ok () s ∧ app' = { app with session := s } := by
  rw [App.onSession, run_within] at ran
  cases result : x.run app.session with
  | ok _ s =>
    rw [result] at ran
    cases ran
    exact ⟨s, rfl, rfl⟩
  | error trap s =>
    rw [result] at ran
    cases ran

omit [JavaScript] in
theorem deliver_inFlight {app' : App} (ran : App.deliver.run app = .ok () app') :
    app'.inFlight = app.inFlight.tail := by
  cases queue : app.inFlight with
  | nil =>
    rw [run_deliver_nil queue] at ran
    cases ran
    rw [queue, List.tail_nil]
  | cons message later =>
    rw [run_deliver_cons queue] at ran
    obtain ⟨s, _, rfl⟩ := onSession_ok ran
    rfl

theorem Joined.onSession {ops' : List Operation} {x : Method GameSession Unit} {s : GameSession}
    (joined : Joined l start begun orders flying ops app) (ran : x.run app.session = .ok () s)
    (told : GameSession.Told l start begun orders ops' s) :
    ∃ app', (App.onSession x).run app = .ok () app' ∧ Joined l start begun orders flying ops' app' ∧
      app'.page = app.page ∧ app'.posted = app.posted :=
  ⟨_, run_onSession_ok ran, ⟨joined.posted, joined.uttered, joined.inFlight, joined.decodes, told⟩, rfl, rfl⟩

theorem opened_joined (playable : l.Playable) (player : List PlayerCommand) (project : Project)
    (world : Nat → Answer) :
    ∃ start app, ((∃ t ∈ l.tiles, t.type = TypeOfTile.start.rawValue) → l.IsFirstStart start) ∧
      opened project world l player = .ok app ∧ app.page = .create project world ∧ app.posted = [] ∧
      Joined l start (.begun start (player ++ [.reset])) [] [] [] app := by
  obtain ⟨start, s, first, loaded, told⟩ := GameSession.viewDidLoad_told playable player
  refine ⟨start, { page := .create project world, session := s }, first, ?_, rfl, rfl, .nil, nofun, .nil, by simp, told⟩
  simp [opened, loaded, Bind.bind, Except.bind, pure, Except.pure]

end Deliveries

section Events

def pageEvents (actions : List AppAction) : List Vm.Event :=
  actions.filterMap fun
    | .page event => some event
    | .stopAllClick => some .stopAll
    | _ => none

theorem pageEvents_page (events : List Vm.Event) : pageEvents (events.map .page) = events := by
  unfold pageEvents
  rw [List.filterMap_map]
  exact List.filterMap_some

theorem pageEvents_append (first later : List AppAction) :
    pageEvents (first ++ later) = pageEvents first ++ pageEvents later :=
  List.filterMap_append

theorem pageEvents_eq_nil {actions : List AppAction}
    (only : ∀ action ∈ actions, action = .deliver ∨ action = .consumeInstruction) : pageEvents actions = [] := by
  unfold pageEvents
  rw [List.filterMap_eq_nil_iff]
  intro action member
  rcases only action member with rfl | rfl <;> rfl

end Events

section Runs

variable [Graphemes] [JavaScript] [Opcodes] {l : DataLevel} {start : GridWalk.Cell} {begun : Play}
  {orders flying : List (Option Operation)} {ops : List Operation} {app : App}

theorem Joined.pageEvent (joined : Joined l start begun orders flying ops app) (event : Vm.Event) :
    ∃ app' flying', (pageEvent event).run app = .ok () app' ∧ Joined l start begun orders flying' ops app' ∧
      app'.page = final (Vm.perform event) app.page ∧
      (app.posted = app.page.posted → app'.posted = app'.page.posted) := by
  obtain ⟨messages, shape, spoken⟩ := Vm.speaks_perform event app.page
  obtain ⟨news, meant, decodes⟩ := means_all_of_spoken spoken
  have joined' := joined.post meant (fun m member => .inr (spoken m member)) decodes
  have dropped : (final (Vm.perform event) app.page).posted.drop app.page.posted.length = messages := by
    rw [shape, List.drop_left]
  refine ⟨{ app.post messages with page := final (Vm.perform event) app.page }, flying ++ news, ?_, ?_, rfl, ?_⟩
  · simp only [App.pageEvent, EStateM.run_modify, dropped]
  · exact ⟨joined'.posted, joined'.uttered, joined'.inFlight, joined'.decodes, joined'.told⟩
  · intro same
    simp only [App.post, same, shape]

theorem perform_joined (playable : l.Playable) (joined : Joined l start begun orders flying ops app)
    (action : AppAction) :
    ∃ app' orders' flying' ops', (perform action).run app = .ok () app' ∧
      Joined l start begun orders' flying' ops' app' ∧ app'.page = app.page.after (pageEvents [action]) ∧
      (action ≠ .stopAllClick → app.posted = app.page.posted → app'.posted = app'.page.posted) := by
  cases action with
  | page event =>
    obtain ⟨app', flying', ran, joined', page, same⟩ := joined.pageEvent event
    exact ⟨app', orders, flying', ops, ran, joined', page, fun _ => same⟩
  | stopAllClick =>
    have stop : GameSession.Means "00 stop" (some .stopLevel) := GameSession.means_stop
    have clicked := joined.post (.cons stop .nil) (by simp [Uttered]) (by simp)
    obtain ⟨app', flying', ran, joined', page, _⟩ := clicked.pageEvent .stopAll
    exact ⟨app', orders, flying', ops, ran, joined', page, fun other => absurd rfl other⟩
  | deliver =>
    obtain ⟨app', orders', flying', ran, joined', page, posted⟩ := joined.deliver
    exact ⟨app', orders', flying', ops, ran, joined', page, fun _ same => by rw [posted, page, same]⟩
  | consumeEvent =>
    obtain ⟨s', more, ran, told'⟩ := joined.told.consumeEvent
    obtain ⟨app', ran', joined', page, posted⟩ := joined.onSession ran told'
    exact ⟨app', orders, flying, _, ran', joined', page, fun _ same => by rw [posted, page, same]⟩
  | consumeInstruction =>
    have decodes : ∀ call, some (.call call) ∈ orders → call.Decodes :=
      fun call member => joined.decodes call (List.mem_append_left _ member)
    obtain ⟨s', more, ran, told'⟩ := joined.told.consumeInstruction playable decodes
    obtain ⟨app', ran', joined', page, posted⟩ := joined.onSession ran told'
    exact ⟨app', orders, flying, _, ran', joined', page, fun _ same => by rw [posted, page, same]⟩

theorem run_joined (playable : l.Playable) (actions : List AppAction)
    (joined : Joined l start begun orders flying ops app) :
    ∃ app' orders' flying' ops', (runAll perform actions).run app = .ok () app' ∧
      Joined l start begun orders' flying' ops' app' ∧ app'.page = app.page.after (pageEvents actions) ∧
      ((∀ action ∈ actions, action ≠ .stopAllClick) → app.posted = app.page.posted →
        app'.posted = app'.page.posted) := by
  induction actions generalizing app orders flying ops with
  | nil => exact ⟨app, orders, flying, ops, rfl, joined, rfl, fun _ same => same⟩
  | cons action actions ih =>
    obtain ⟨app₁, orders₁, flying₁, ops₁, ran₁, joined₁, page₁, same₁⟩ := perform_joined playable joined action
    obtain ⟨app', orders', flying', ops', ran', joined', page', same'⟩ := ih joined₁
    refine ⟨app', orders', flying', ops', runAll_cons_ok.mpr ⟨app₁, ran₁, ran'⟩, joined', ?_, ?_⟩
    · rw [page', page₁]
      cases action <;> rfl
    · intro noStop same
      apply same' fun other member => noStop other (List.mem_cons_of_mem _ member)
      exact same₁ (noStop action List.mem_cons_self) same

theorem Joined.arrives (joined : Joined l start begun orders flying ops app) :
    ∃ app' orders' flying', (runAll perform (List.replicate app.inFlight.length .deliver)).run app = .ok () app' ∧
      Joined l start begun orders' flying' ops app' ∧ app'.inFlight = [] := by
  induction flight : app.inFlight generalizing app orders flying with
  | nil => exact ⟨app, orders, flying, rfl, joined, flight⟩
  | cons message later ih =>
    obtain ⟨app₁, orders₁, flying₁, ran₁, joined₁, _⟩ := joined.deliver
    have shorter : app₁.inFlight = later := by rw [deliver_inFlight ran₁, flight, List.tail_cons]
    obtain ⟨app', orders', flying', ran', joined', landed⟩ := ih joined₁ shorter
    exact ⟨app', orders', flying', runAll_cons_ok.mpr ⟨app₁, ran₁, ran'⟩, joined', landed⟩

theorem Joined.hears (playable : l.Playable) (joined : Joined l start begun orders flying ops app)
    (landed : app.inFlight = []) :
    ∃ app', (runAll perform (List.replicate app.session.instructionsBehaviourSubject.length .consumeInstruction)).run
      app = .ok () app' ∧ app'.inFlight = [] ∧ app'.session.instructionsBehaviourSubject = [] := by
  induction queue : app.session.instructionsBehaviourSubject generalizing app orders flying ops with
  | nil => exact ⟨app, rfl, landed, queue⟩
  | cons message later ih =>
    obtain ⟨app₁, orders₁, flying₁, ops₁, ran₁, joined₁, _⟩ := perform_joined playable joined .consumeInstruction
    obtain ⟨s, consumed, shape⟩ := onSession_ok ran₁
    have shorter : app₁.session.instructionsBehaviourSubject = later := by
      rcases GameSession.consumeInstruction_cases consumed with ⟨none, _⟩ | ⟨_, _, same, left, _⟩
      · rw [queue] at none
        cases none
      · cases queue.symm.trans same
        rw [shape]
        exact left
    have still : app₁.inFlight = [] := by rw [shape, ← landed]
    obtain ⟨app', ran', rest⟩ := ih joined₁ still shorter
    exact ⟨app', runAll_cons_ok.mpr ⟨app₁, ran₁, ran'⟩, rest⟩

theorem Joined.drains (playable : l.Playable) (joined : Joined l start begun orders flying ops app) :
    ∃ actions, (∀ action ∈ actions, action = .deliver ∨ action = .consumeInstruction) ∧
      ∃ app', (runAll perform actions).run app = .ok () app' ∧ app'.inFlight = [] ∧
        app'.session.instructionsBehaviourSubject = [] := by
  obtain ⟨app₁, orders₁, flying₁, ran₁, joined₁, landed⟩ := joined.arrives
  obtain ⟨app', ran', rest⟩ := joined₁.hears playable landed
  refine ⟨_ ++ _, fun action member => ?_, app', runAll_append_ok.mpr ⟨app₁, ran₁, ran'⟩, rest⟩
  exact (List.mem_append.mp member).imp List.eq_of_mem_replicate List.eq_of_mem_replicate

/-- Whatever the web page goes through, wherever stop is clicked and however messages and subscribers interleave, the
    game screen never traps, and its engine shows the game of the instructions and stops that it has heard. What the VM
    has posted are runs and instructions. -/
theorem app_never_traps (playable : l.Playable) (player : List PlayerCommand) (project : Project)
    (world : Nat → Answer) :
    ∃ start app₀, ((∃ t ∈ l.tiles, t.type = TypeOfTile.start.rawValue) → l.IsFirstStart start) ∧
      opened project world l player = .ok app₀ ∧ ∀ actions, ∃ app orders flying ops,
        (runAll perform actions).run app₀ = .ok () app ∧
          Joined l start (.begun start (player ++ [.reset])) orders flying ops app ∧
          ∀ message ∈ app.page.posted, Spoken message := by
  obtain ⟨start, app₀, first, built, page, _, joined⟩ := opened_joined playable player project world
  refine ⟨start, app₀, first, built, ?_⟩
  intro actions
  obtain ⟨app, orders, flying, ops, ran, joined', page', _⟩ := run_joined playable actions joined
  refine ⟨app, orders, flying, ops, ran, joined', ?_⟩
  obtain ⟨messages, shape, spoken⟩ := Vm.speaks_after (pageEvents actions) app₀.page
  rw [page', shape, page]
  exact spoken

end Runs

section Short

local instance appGraphemes : Graphemes := .marks

local instance appJavaScript : JavaScript := .texts

attribute [local instance] Loops.instOpcodes

/-- A script with a loop in a loop is started, and stopped with a part of its instructions on their way. -/
theorem app_never_traps_short :
    ∃ start app₀, opened (Loops.workspace Loops.nestedBlock) (fun _ => {}) EngineAR.shortLevel [] = .ok app₀ ∧
      ∃ app orders flying ops,
        (runAll perform [.page .greenFlag, .page (.tick 20 2), .deliver, .consumeInstruction, .deliver, .stopAllClick,
          .consumeInstruction, .consumeEvent, .consumeInstruction, .consumeEvent]).run app₀ = .ok () app ∧
          Joined EngineAR.shortLevel start (.begun start [.reset]) orders flying ops app ∧
          ∀ message ∈ app.page.posted, Spoken message := by
  obtain ⟨start, app₀, _, built, safe⟩ :=
    app_never_traps EngineAR.shortLevel_playable [] (Loops.workspace Loops.nestedBlock) fun _ => {}
  exact ⟨start, app₀, built, safe _⟩

end Short

end App

end ArRobotCode
