import ArRobotCode.Users.UserRepository

namespace ArRobotCode

open Swift DocumentStore

namespace UserRepository

def saved (r : UserRepository) (p : UserProperties) : UserRepository :=
  { r with userProperties := some p, db := r.db ++ [p.asDictionary], requests := r.requests + 1 }

def learned (r : UserRepository) (answer : Nat) (p : UserProperties) : UserRepository :=
  { r with
    answers := r.answers.eraseIdx answer
    userProperties := some p
    userPropertiesSubject := r.userPropertiesSubject ++ [p] }

variable {r : UserRepository}

theorem run_addCompletedLevel_absent (absent : r.userProperties = none) (levelID : String) :
    (addCompletedLevel levelID).run r = .ok () r := by
  simp [addCompletedLevel, absent]

theorem run_addCompletedLevel_present {p : UserProperties} (present : r.userProperties = some p) (levelID : String) :
    (addCompletedLevel levelID).run r = if levelID ∈ p.completedLevels then .ok () r
      else .ok () (r.saved { p with completedLevels := p.completedLevels ++ [levelID] }) := by
  by_cases known : levelID ∈ p.completedLevels <;>
    simp [addCompletedLevel, -bind_pure_comp, EStateM.run_bind, present, known, saveUserPropertiesToServer,
      getUserPropertiesFromServer, saved]

theorem run_setUserSelectedCharacter_absent (absent : r.userProperties = none) (newCharacterID : String) :
    ∃ r', (setUserSelectedCharacter newCharacterID).run r = .error .unexpectedNil r' := by
  simp [setUserSelectedCharacter, -bind_pure_comp, EStateM.run_bind, absent, saveUserPropertiesToServer]

theorem run_setUserSelectedCharacter_present {p : UserProperties} (present : r.userProperties = some p)
    (newCharacterID : String) : (setUserSelectedCharacter newCharacterID).run r =
      .ok () (r.saved { p with selectedCharacter := newCharacterID }) := by
  simp [setUserSelectedCharacter, -bind_pure_comp, EStateM.run_bind, present, saveUserPropertiesToServer,
    getUserPropertiesFromServer, saved]

end UserRepository

namespace Account

variable {ι : Type} [DecidableEq ι]

def put (a : Account ι) (d : ι) (r : UserRepository) : Account ι := { a with devices := Function.update a.devices d r }

@[simp] theorem put_document (a : Account ι) (d : ι) (r : UserRepository) : (a.put d r).document = a.document := rfl

@[simp] theorem put_same (a : Account ι) (d : ι) (r : UserRepository) : (a.put d r).devices d = r := by
  simp only [put, Function.update_self]

theorem put_other (a : Account ι) {d e : ι} (r : UserRepository) (other : e ≠ d) :
    (a.put d r).devices e = a.devices e := by
  simp only [put, Function.update_of_ne other]

@[simp] theorem put_self (a : Account ι) (d : ι) : a.put d (a.devices d) = a := by
  simp [put]

@[simp] theorem put_put (a : Account ι) (d : ι) (r r' : UserRepository) : (a.put d r).put d r' = a.put d r' := by
  simp [put]

theorem onDevice_run (d : ι) (x : Method UserRepository Unit) (a : Account ι) :
    (onDevice d x).run a = match x.run (a.devices d) with
      | .ok _ r => .ok () (a.put d r)
      | .error trap r => .error trap (a.put d r) := by
  rw [onDevice, run_within]
  cases x.run (a.devices d) <;> rfl

variable {a a' : Account ι} {d : ι}

theorem addCompletedLevel_cases {levelID : String}
    (ran : (perform (.addCompletedLevel d levelID)).run a = .ok () a') :
    (a' = a ∧ ∀ p, (a.devices d).userProperties = some p → levelID ∈ p.completedLevels) ∨
      ∃ p, (a.devices d).userProperties = some p ∧
        a' = a.put d ((a.devices d).saved { p with completedLevels := p.completedLevels ++ [levelID] }) := by
  simp only [perform, onDevice_run] at ran
  cases present : (a.devices d).userProperties with
  | none =>
    rw [UserRepository.run_addCompletedLevel_absent present] at ran
    simp only [put_self] at ran
    cases ran
    exact .inl ⟨rfl, by simp⟩
  | some p =>
    rw [UserRepository.run_addCompletedLevel_present present] at ran
    by_cases known : levelID ∈ p.completedLevels
    · simp only [known, if_true, put_self] at ran
      cases ran
      exact .inl ⟨rfl, by rintro _ ⟨⟩; exact known⟩
    · simp only [known, if_false] at ran
      cases ran
      exact .inr ⟨p, rfl, rfl⟩

theorem setUserSelectedCharacter_cases {newCharacterID : String}
    (ran : (perform (.setUserSelectedCharacter d newCharacterID)).run a = .ok () a') :
    ∃ p, (a.devices d).userProperties = some p ∧
      a' = a.put d ((a.devices d).saved { p with selectedCharacter := newCharacterID }) := by
  simp only [perform, onDevice_run] at ran
  cases present : (a.devices d).userProperties with
  | none =>
    obtain ⟨r', traps⟩ := UserRepository.run_setUserSelectedCharacter_absent present newCharacterID
    simp [traps] at ran
  | some p =>
    rw [UserRepository.run_setUserSelectedCharacter_present present] at ran
    cases ran
    exact ⟨p, rfl, rfl⟩

theorem applyUpdate_cases (ran : (perform (.applyUpdate d)).run a = .ok () a') :
    ((a.devices d).db = [] ∧ a' = a) ∨ ∃ u later, (a.devices d).db = u :: later ∧
      a' = ({ a with document := a.document.map (·.updated u) } : Account ι).put d
        { a.devices d with db := later } := by
  cases queue : (a.devices d).db with
  | nil =>
    simp [perform, applyUpdate, queue] at ran
    exact .inl ⟨rfl, ran.symm⟩
  | cons u later =>
    simp [perform, applyUpdate, -bind_pure_comp, EStateM.run_bind, queue, onDevice_run] at ran
    exact .inr ⟨u, later, rfl, ran.symm⟩

theorem answerFetch_cases (ran : (perform (.answerFetch d)).run a = .ok () a') :
    a' = a ∨ a' = a.put d { a.devices d with
      requests := (a.devices d).requests - 1, answers := (a.devices d).answers ++ [a.document] } := by
  by_cases none : (a.devices d).requests = 0
  · simp [perform, answerFetch, -bind_pure_comp, EStateM.run_bind, none, onDevice_run] at ran
    exact .inl ran.symm
  · simp [perform, answerFetch, -bind_pure_comp, EStateM.run_bind, none, onDevice_run] at ran
    exact .inr ran.symm

theorem deliver_cases {answer : Nat} (ran : (perform (.deliver d answer)).run a = .ok () a') :
    a' = a ∨ a' = a.put d { a.devices d with answers := (a.devices d).answers.eraseIdx answer } ∨
      ∃ fields p, some fields ∈ (a.devices d).answers ∧ UserProperties.decode fields = some p ∧
        a' = a.put d ((a.devices d).learned answer p) := by
  cases found : (a.devices d).answers[answer]? with
  | none =>
    simp [perform, deliver, found] at ran
    exact .inl ran.symm
  | some document =>
    simp [perform, deliver, -bind_pure_comp, EStateM.run_bind, found, onDevice_run] at ran
    cases decoded : document.bind UserProperties.decode with
    | none =>
      simp [UserRepository.fetched, decoded] at ran
      exact .inr (.inl ran.symm)
    | some p =>
      obtain ⟨fields, rfl, same⟩ := Option.bind_eq_some_iff.mp decoded
      simp [UserRepository.fetched, same] at ran
      exact .inr (.inr ⟨fields, p, List.mem_of_getElem? found, same, ran.symm⟩)

end Account

end ArRobotCode
