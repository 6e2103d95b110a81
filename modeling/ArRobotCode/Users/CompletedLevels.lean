import Mathlib.Data.Fintype.Defs
import ArRobotCode.Users.AccountContents

namespace ArRobotCode

open Swift DocumentStore Trapping

def completedLevelsOf (document : Option Dictionary) : List String :=
  ((document.bind (· "CompletedLevels")).bind Json.asStrings).getD []

@[simp] theorem completedLevelsOf_asDictionary (p : UserProperties) :
    completedLevelsOf (some p.asDictionary) = p.completedLevels := by
  have listed : p.asDictionary "CompletedLevels" = some (.ofStrings p.completedLevels) := rfl
  simp [completedLevelsOf, listed]

theorem completedLevelsOf_updated (document : Dictionary) (p : UserProperties) :
    completedLevelsOf (some (document.updated p.asDictionary)) = p.completedLevels := by
  have listed : p.asDictionary "CompletedLevels" = some (.ofStrings p.completedLevels) := rfl
  simp [completedLevelsOf, Fields.updated_listed listed]

theorem mem_completedLevelsOf_updated {document : Option Dictionary} {u : Dictionary} {id : String}
    (member : id ∈ completedLevelsOf (document.map (·.updated u))) :
    id ∈ completedLevelsOf document ∨ id ∈ completedLevelsOf (some u) := by
  cases document with
  | none => exact .inl member
  | some fields =>
    cases listed : u "CompletedLevels" with
    | none =>
      rw [Option.map_some, completedLevelsOf, Option.bind_some, Fields.updated_unlisted listed] at member
      exact .inl member
    | some value =>
      rw [Option.map_some, completedLevelsOf, Option.bind_some, Fields.updated_listed listed] at member
      rw [completedLevelsOf, completedLevelsOf, Option.bind_some, Option.bind_some, listed]
      exact .inr member

theorem UserProperties.completedLevelsOf_decoded {fields : Dictionary} {p : UserProperties}
    (decoded : decode fields = some p) : completedLevelsOf (some fields) = p.completedLevels := by
  have listed : p.asDictionary "CompletedLevels" = some (.ofStrings p.completedLevels) := rfl
  simp [completedLevelsOf, asDictionary_of_decode decoded listed]

def AccountAction.added {ι : Type} : AccountAction ι → List String
  | .addCompletedLevel _ levelID => [levelID]
  | _ => []

namespace Account

variable {ι : Type}

def OnTheWay (a : Account ι) (id : String) : Prop :=
  ∃ d, ∃ u ∈ (a.devices d).db, id ∈ completedLevelsOf (some u)

def Holds (a : Account ι) (id : String) : Prop := id ∈ completedLevelsOf a.document ∨ a.OnTheWay id

instance [Fintype ι] (a : Account ι) (id : String) : Decidable (a.OnTheWay id) :=
  inferInstanceAs (Decidable (∃ d, ∃ u ∈ (a.devices d).db, id ∈ completedLevelsOf (some u)))

/-- A level is completed only once the properties are there, unless it is known already, and the server applies an
    update only when every level that its document lists is also in an update on the way. -/
def UpToDate (a : Account ι) : AccountAction ι → Prop
  | .addCompletedLevel d levelID => (a.devices d).userProperties ≠ none ∨ a.Holds levelID
  | .applyUpdate d => (a.devices d).db = [] ∨ ∀ id ∈ completedLevelsOf a.document, a.OnTheWay id
  | _ => True

def SameFields (document₀ document : Option Dictionary) : Prop :=
  document.isSome = document₀.isSome ∧ ∀ key, key ≠ "CompletedLevels" → key ≠ "SelectedCharacter" →
    document.bind (· key) = document₀.bind (· key)

structure SentFor (document₀ : Option Dictionary) (u : Dictionary) : Prop where
  signedUp : document₀.isSome
  encodes : ∃ p : UserProperties, u = p.asDictionary
  same : ∀ key value, key ≠ "CompletedLevels" → key ≠ "SelectedCharacter" → u key = some value →
    document₀.bind (· key) = some value

theorem sameFields_closed (document₀ : Option Dictionary) (action : AccountAction ι) :
    Closed (SameFields document₀) (SentFor document₀) action where
  updated {document u} server sent := by
    refine ⟨by rw [Option.isSome_map]; exact server.1, fun key levels character => ?_⟩
    have here := server.2 key levels character
    cases document with
    | none => exact here
    | some fields =>
      cases listed : u key with
      | none =>
        rw [Option.map_some, Option.bind_some, Fields.updated_unlisted listed]
        exact here
      | some value =>
        rw [Option.map_some, Option.bind_some, Fields.updated_listed listed]
        exact (sent.same key value levels character listed).symm
  decoded {fields p} server decoded :=
    { signedUp := server.1.symm
      encodes := ⟨p, rfl⟩
      same := fun key value levels character listed => by
        rw [← server.2 key levels character]
        exact UserProperties.asDictionary_of_decode decoded listed }
  changed {p} sent :=
    { signedUp := sent.signedUp
      encodes := ⟨_, rfl⟩
      same := fun key value levels character listed =>
        sent.same key value levels character (by rw [← listed, action.changed_other p levels character]) }

theorem levels_closed (action : AccountAction ι) {S : String → Prop} (takes : ∀ id ∈ action.added, S id) :
    Closed (fun document => ∀ id ∈ completedLevelsOf document, S id)
      (fun u => ∀ id ∈ completedLevelsOf (some u), S id) action where
  updated server sent id member := by
    rcases mem_completedLevelsOf_updated member with old | new
    · exact server id old
    · exact sent id new
  decoded {fields p} server decoded id member := by
    rw [completedLevelsOf_asDictionary, ← UserProperties.completedLevelsOf_decoded decoded] at member
    exact server id member
  changed {p} sent id member := by
    rw [completedLevelsOf_asDictionary] at sent member
    cases action with
    | addCompletedLevel d levelID =>
      rcases List.mem_append.mp member with old | new
      · exact sent id old
      · exact takes id new
    | setUserSelectedCharacter d newCharacterID => exact sent id member
    | applyUpdate d => exact sent id member
    | answerFetch d => exact sent id member
    | deliver d answer => exact sent id member

/-- What a run keeps whose actions are all up to date: every level of `needed`, and every level that some device has
    seen, is held. -/
structure Kept (document₀ : Option Dictionary) (needed : List String) (a : Account ι) : Prop where
  same : a.Carries (SameFields document₀) (SentFor document₀)
  known : a.Carries (fun document => ∀ id ∈ completedLevelsOf document, a.Holds id)
    (fun u => ∀ id ∈ completedLevelsOf (some u), a.Holds id)
  held : ∀ id ∈ needed, a.Holds id

theorem initial_kept (document : Option Dictionary) :
    Kept document (completedLevelsOf document) (Account.initial document : Account ι) where
  same := Carries.initial ⟨rfl, fun _ _ _ => rfl⟩
  known := Carries.initial fun _ member => .inl member
  held _ member := .inl member

variable [DecidableEq ι] {a a' : Account ι} {document₀ : Option Dictionary} {needed : List String}

theorem Holds.put {d : ι} {r : UserRepository} {id : String} (held : a.Holds id)
    (more : ∀ u ∈ (a.devices d).db, u ∈ r.db) : (a.put d r).Holds id := by
  rcases held with server | ⟨e, u, member, listed⟩
  · exact .inl server
  · rcases eq_or_ne e d with rfl | other
    · exact .inr ⟨e, u, by rw [put_same]; exact more u member, listed⟩
    · exact .inr ⟨e, u, by rw [put_other a r other]; exact member, listed⟩

theorem holds_applied_iff (same : a.Carries (SameFields document₀) (SentFor document₀)) {d : ι} {u : Dictionary}
    {later : List Dictionary} (queue : (a.devices d).db = u :: later) {id : String} :
    (({ a with document := a.document.map (·.updated u) } : Account ι).put d
      { a.devices d with db := later }).Holds id ↔ a.OnTheWay id := by
  have sent := (same.devices d).updates u (by simp [queue])
  obtain ⟨p, rfl⟩ := sent.encodes
  obtain ⟨fields, present⟩ := Option.isSome_iff_exists.mp (same.document.1.trans sent.signedUp)
  simp only [Holds, put_document, present, Option.map_some, completedLevelsOf_updated]
  constructor
  · rintro (server | ⟨e, v, member, listed⟩)
    · exact ⟨d, _, by rw [queue]; exact List.mem_cons_self, by rwa [completedLevelsOf_asDictionary]⟩
    · rcases eq_or_ne e d with rfl | other
      · rw [put_same] at member
        exact ⟨e, v, by rw [queue]; exact List.mem_cons_of_mem _ member, listed⟩
      · rw [put_other _ _ other] at member
        exact ⟨e, v, member, listed⟩
  · intro given
    rcases given with ⟨e, v, member, listed⟩
    rcases eq_or_ne e d with rfl | other
    · rw [queue] at member
      rcases List.mem_cons.mp member with rfl | stays
      · rw [completedLevelsOf_asDictionary] at listed
        exact .inl listed
      · exact .inr ⟨e, v, by rw [put_same]; exact stays, listed⟩
    · exact .inr ⟨e, v, by rw [put_other _ _ other]; exact member, listed⟩

theorem Kept.holds_step {action : AccountAction ι} (kept : Kept document₀ needed a) (upToDate : a.UpToDate action)
    (ran : (perform action).run a = .ok () a') {id : String} (held : a.Holds id) : a'.Holds id := by
  cases action with
  | addCompletedLevel d levelID =>
    rcases addCompletedLevel_cases ran with ⟨rfl, _⟩ | ⟨p, cached, rfl⟩
    · exact held
    · exact held.put fun u member => List.mem_append_left _ member
  | setUserSelectedCharacter d newCharacterID =>
    obtain ⟨p, cached, rfl⟩ := setUserSelectedCharacter_cases ran
    exact held.put fun u member => List.mem_append_left _ member
  | applyUpdate d =>
    rcases applyUpdate_cases ran with ⟨_, rfl⟩ | ⟨u, later, queue, rfl⟩
    · exact held
    · rcases upToDate with empty | onTheWay
      · simp [queue] at empty
      · exact (holds_applied_iff kept.same queue).mpr (held.elim (onTheWay id) fun waiting => waiting)
  | answerFetch d =>
    rcases answerFetch_cases ran with rfl | rfl
    · exact held
    · exact held.put fun u member => member
  | deliver d answer =>
    rcases deliver_cases ran with rfl | rfl | ⟨fields, p, answered, decoded, rfl⟩
    · exact held
    · exact held.put fun u member => member
    · exact held.put fun u member => member

theorem Kept.holds_added {action : AccountAction ι} (kept : Kept document₀ needed a) (upToDate : a.UpToDate action)
    (ran : (perform action).run a = .ok () a') {id : String} (isNew : id ∈ action.added) : a'.Holds id := by
  cases action with
  | addCompletedLevel d levelID =>
    obtain rfl : id = levelID := List.mem_singleton.mp isNew
    rcases addCompletedLevel_cases ran with ⟨rfl, listed⟩ | ⟨p, cached, rfl⟩
    · cases cached : (a'.devices d).userProperties with
      | none => exact upToDate.resolve_left (not_not_intro cached)
      | some p =>
        apply (kept.known.devices d).cache p cached
        rw [completedLevelsOf_asDictionary]
        exact listed p cached
    · refine .inr ⟨d, { p with completedLevels := p.completedLevels ++ [id] }.asDictionary, ?_, ?_⟩
      · rw [put_same]
        simp [UserRepository.saved]
      · simp
  | setUserSelectedCharacter d newCharacterID => cases isNew
  | applyUpdate d => cases isNew
  | answerFetch d => cases isNew
  | deliver d answer => cases isNew

theorem Kept.step {action : AccountAction ι} (kept : Kept document₀ needed a) (upToDate : a.UpToDate action)
    (ran : (perform action).run a = .ok () a') : Kept document₀ (needed ++ action.added) a' := by
  have later {id : String} (held : a.Holds id) : a'.Holds id := kept.holds_step upToDate ran held
  have added {id : String} (isNew : id ∈ action.added) : a'.Holds id := kept.holds_added upToDate ran isNew
  refine ⟨kept.same.step (sameFields_closed document₀ action) ran, ?_, fun id member => ?_⟩
  · apply Carries.step (levels_closed action fun id isNew => added isNew) _ ran
    exact kept.known.mono (fun document all id member => later (all id member))
      fun u all id member => later (all id member)
  · rcases List.mem_append.mp member with old | isNew
    · exact later (kept.held id old)
    · exact added isNew

theorem Kept.run {actions : List (AccountAction ι)} (kept : Kept document₀ needed a)
    (upToDate : Along perform UpToDate actions a) (ran : (runAll perform actions).run a = .ok () a') :
    Kept document₀ (needed ++ actions.flatMap AccountAction.added) a' := by
  induction actions generalizing a needed with
  | nil =>
    cases ran
    simpa using kept
  | cons action actions ih =>
    obtain ⟨middle, first, rest⟩ := runAll_cons_ok.mp ran
    have whole := ih (kept.step upToDate.1 first) (upToDate.tail first) rest
    rwa [List.append_assoc, ← List.flatMap_cons] at whole

/-- An action that is not up to date leaves a level behind that is neither on the server nor on the way there. -/
theorem Kept.lost {action : AccountAction ι} (kept : Kept document₀ needed a)
    (only : ∀ id ∈ completedLevelsOf a.document, id ∈ needed) (ran : (perform action).run a = .ok () a')
    (outdated : ¬ a.UpToDate action) : ∃ id ∈ needed ++ action.added, ¬ a'.Holds id := by
  cases action with
  | addCompletedLevel d levelID =>
    obtain ⟨present, unknown⟩ := not_or.mp outdated
    rcases addCompletedLevel_cases ran with ⟨rfl, _⟩ | ⟨p, cached, _⟩
    · exact ⟨levelID, by simp [AccountAction.added], unknown⟩
    · exact absurd (by simp [cached]) present
  | applyUpdate d =>
    obtain ⟨waiting, dropped⟩ := not_or.mp outdated
    rw [not_forall] at dropped
    obtain ⟨id, notOnTheWay⟩ := dropped
    rw [Classical.not_imp] at notOnTheWay
    rcases applyUpdate_cases ran with ⟨empty, _⟩ | ⟨u, later, queue, rfl⟩
    · exact absurd empty waiting
    · refine ⟨id, List.mem_append_left _ (only id notOnTheWay.1), fun held => notOnTheWay.2 ?_⟩
      exact (holds_applied_iff kept.same queue).mp held
  | setUserSelectedCharacter d newCharacterID => exact absurd trivial outdated
  | answerFetch d => exact absurd trivial outdated
  | deliver d answer => exact absurd trivial outdated

/-- Once every update is applied, the document lists the levels of before and the levels that were completed. -/
theorem completed_levels_kept {document : Option Dictionary} {actions : List (AccountAction ι)}
    (ran : (runAll perform actions).run (Account.initial document) = .ok () a)
    (upToDate : Along perform UpToDate actions (Account.initial document))
    (applied : ∀ d, (a.devices d).db = []) :
    (∀ id ∈ completedLevelsOf document ++ actions.flatMap AccountAction.added, id ∈ completedLevelsOf a.document) ∧
      SameFields document a.document := by
  have kept := (initial_kept document).run upToDate ran
  refine ⟨fun id member => ?_, kept.same.document⟩
  rcases kept.held id member with server | ⟨d, u, waiting, _⟩
  · exact server
  · simp [applied d] at waiting

theorem Kept.upToDate_of_held {actions : List (AccountAction ι)} (kept : Kept document₀ needed a)
    (only : a.Carries (fun document => ∀ id ∈ completedLevelsOf document, id ∈ needed)
      (fun u => ∀ id ∈ completedLevelsOf (some u), id ∈ needed))
    (held : ∀ before, before <+: actions → ∀ middle, (runAll perform before).run a = .ok () middle →
      ∀ id ∈ needed ++ before.flatMap AccountAction.added, middle.Holds id) :
    (runAll perform actions).run a = .ok () a' → Along perform UpToDate actions a := by
  induction actions generalizing a needed with
  | nil => exact fun _ => trivial
  | cons action actions ih =>
    intro ran
    obtain ⟨next, first, rest⟩ := runAll_cons_ok.mp ran
    have upToDate : a.UpToDate action := by
      by_contra outdated
      obtain ⟨id, member, gone⟩ := kept.lost only.document first outdated
      have single : (runAll perform [action]).run a = .ok () next := runAll_cons_ok.mpr ⟨next, first, rfl⟩
      exact gone (held [action] ⟨actions, rfl⟩ next single id (by simpa using member))
    have seen := (only.mono (fun _ all id member => List.mem_append_left action.added (all id member))
      fun _ all id member => List.mem_append_left action.added (all id member)).step
        (levels_closed action fun id member => List.mem_append_right needed member) first
    apply Along.cons upToDate first (ih (kept.step upToDate first) seen _ rest)
    intro before shorter middle reached id member
    rw [List.append_assoc, ← List.flatMap_cons] at member
    exact held (action :: before) (List.cons_prefix_cons.mpr ⟨rfl, shorter⟩) middle
      (runAll_cons_ok.mpr ⟨next, first, reached⟩) id member

/-- The actions of a run are all up to date exactly when no state on the way lacks a level. -/
theorem upToDate_iff_held {document : Option Dictionary} {actions : List (AccountAction ι)}
    (ran : (runAll perform actions).run (Account.initial document) = .ok () a) :
    Along perform UpToDate actions (Account.initial document) ↔
      ∀ before, before <+: actions → ∀ middle,
        (runAll perform before).run (Account.initial document) = .ok () middle →
        ∀ id ∈ completedLevelsOf document ++ before.flatMap AccountAction.added, middle.Holds id := by
  constructor
  · rintro upToDate before ⟨after, rfl⟩ middle reached
    exact ((initial_kept document).run upToDate.of_append reached).held
  · intro held
    exact (initial_kept document).upToDate_of_held (Carries.initial fun _ member => member) held ran

def newUser : Dictionary := { role := "user" : UserProperties }.asDictionary

def inTurn : List (AccountAction Bool) :=
  [.answerFetch false, .deliver false 0, .addCompletedLevel false "a", .applyUpdate false,
    .answerFetch true, .deliver true 0, .addCompletedLevel true "b", .applyUpdate true]

def atOnce : List (AccountAction Bool) :=
  [.answerFetch false, .deliver false 0, .answerFetch true, .deliver true 0, .addCompletedLevel false "a",
    .addCompletedLevel true "b", .applyUpdate false, .applyUpdate true, .answerFetch false, .answerFetch true,
    .deliver false 0, .deliver true 0]

theorem completed_levels_kept_in_turn :
    ∃ a, (∀ id ∈ completedLevelsOf (some newUser) ++ inTurn.flatMap AccountAction.added,
        id ∈ completedLevelsOf a.document) ∧
      (runAll perform inTurn).run (Account.initial (some newUser)) = .ok () a := by
  have upToDate : Along perform UpToDate inTurn (Account.initial (some newUser)) := by
    refine .cons_final trivial (.cons_final trivial (.cons_final (.inl ?_) (.cons_final (.inr ?_)
      (.cons_final trivial (.cons_final trivial (.cons_final (.inl ?_) (.cons_final (.inr ?_) trivial)))))))
    all_goals decide +kernel
  have ran := run_eq_of_trapOf_eq_none (x := runAll perform inTurn) (s := Account.initial (some newUser))
    (by decide +kernel)
  exact ⟨_, (completed_levels_kept ran upToDate (by decide +kernel)).1, ran⟩

theorem completed_level_overwritten :
    ¬ ∀ (document : Option Dictionary) (actions : List (AccountAction Bool)) (a : Account Bool),
      (runAll perform actions).run (Account.initial document) = .ok () a →
      (∀ d, (a.devices d).db = [] ∧ (a.devices d).requests = 0 ∧ (a.devices d).answers = []) →
      ∀ id ∈ completedLevelsOf document ++ actions.flatMap AccountAction.added,
        id ∈ completedLevelsOf a.document := by
  intro never
  have ran := run_eq_of_trapOf_eq_none (x := runAll perform atOnce) (s := Account.initial (some newUser))
    (by decide +kernel)
  have kept := never (some newUser) atOnce _ ran (by decide +kernel) "a" (by decide)
  exact absurd kept (by decide +kernel)

end Account

end ArRobotCode
