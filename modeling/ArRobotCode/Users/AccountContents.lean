import ArRobotCode.Users.AccountSteps

namespace ArRobotCode

open Swift DocumentStore

namespace AccountAction

variable {ι : Type}

def changed : AccountAction ι → UserProperties → UserProperties
  | .addCompletedLevel _ levelID, p => { p with completedLevels := p.completedLevels ++ [levelID] }
  | .setUserSelectedCharacter _ newCharacterID, p => { p with selectedCharacter := newCharacterID }
  | _, p => p

theorem changed_other (action : AccountAction ι) (p : UserProperties) {key : String}
    (levels : key ≠ "CompletedLevels") (character : key ≠ "SelectedCharacter") :
    (action.changed p).asDictionary key = p.asDictionary key := by
  have notLevels : (key == "CompletedLevels") = false := beq_eq_false_iff_ne.mpr levels
  have notCharacter : (key == "SelectedCharacter") = false := beq_eq_false_iff_ne.mpr character
  cases action <;>
    simp only [changed, UserProperties.asDictionary, Fields.ofList, List.lookup_cons, notLevels, notCharacter]

end AccountAction

structure UserRepository.Carries (onServer : Option Dictionary → Prop) (sent : Dictionary → Prop)
    (r : UserRepository) : Prop where
  answers : ∀ answer ∈ r.answers, onServer answer
  updates : ∀ u ∈ r.db, sent u
  cache : ∀ p, r.userProperties = some p → sent p.asDictionary

theorem UserRepository.Carries.saved {onServer : Option Dictionary → Prop} {sent : Dictionary → Prop}
    {r : UserRepository} (carries : r.Carries onServer sent) {p : UserProperties} (saves : sent p.asDictionary) :
    (r.saved p).Carries onServer sent where
  answers := carries.answers
  updates u member := by
    rcases List.mem_append.mp member with old | new
    · exact carries.updates u old
    · rw [List.mem_singleton.mp new]
      exact saves
  cache q cached := by
    cases cached
    exact saves

namespace Account

variable {ι : Type}

structure Carries (onServer : Option Dictionary → Prop) (sent : Dictionary → Prop) (a : Account ι) : Prop where
  document : onServer a.document
  devices : ∀ d, (a.devices d).Carries onServer sent

structure Closed (onServer : Option Dictionary → Prop) (sent : Dictionary → Prop) (action : AccountAction ι) :
    Prop where
  updated : ∀ {document u}, onServer document → sent u → onServer (document.map (·.updated u))
  decoded : ∀ {fields p}, onServer (some fields) → UserProperties.decode fields = some p → sent p.asDictionary
  changed : ∀ {p}, sent p.asDictionary → sent (action.changed p).asDictionary

section Carries

variable {onServer : Option Dictionary → Prop} {sent : Dictionary → Prop} {a a' : Account ι}

theorem Carries.mono {onServer' : Option Dictionary → Prop} {sent' : Dictionary → Prop}
    (carries : a.Carries onServer sent) (server : ∀ document, onServer document → onServer' document)
    (device : ∀ u, sent u → sent' u) : a.Carries onServer' sent' where
  document := server _ carries.document
  devices d :=
    { answers := fun answer member => server _ ((carries.devices d).answers answer member)
      updates := fun u member => device _ ((carries.devices d).updates u member)
      cache := fun p cached => device _ ((carries.devices d).cache p cached) }

theorem Carries.initial {document : Option Dictionary} (start : onServer document) :
    (Account.initial document : Account ι).Carries onServer sent where
  document := start
  devices _ := { answers := by rintro _ ⟨⟩, updates := by rintro _ ⟨⟩, cache := by rintro _ ⟨⟩ }

variable [DecidableEq ι]

theorem Carries.put (carries : a.Carries onServer sent) (d : ι) {r : UserRepository}
    (device : r.Carries onServer sent) : (a.put d r).Carries onServer sent where
  document := carries.document
  devices e := by
    rcases eq_or_ne e d with rfl | other
    · rw [put_same]
      exact device
    · rw [put_other a r other]
      exact carries.devices e

theorem Carries.step {action : AccountAction ι} (closed : Closed onServer sent action)
    (carries : a.Carries onServer sent) (ran : (perform action).run a = .ok () a') : a'.Carries onServer sent := by
  cases action with
  | addCompletedLevel d levelID =>
    rcases addCompletedLevel_cases ran with ⟨rfl, _⟩ | ⟨p, cached, rfl⟩
    · exact carries
    · exact carries.put d ((carries.devices d).saved (closed.changed ((carries.devices d).cache p cached)))
  | setUserSelectedCharacter d newCharacterID =>
    obtain ⟨p, cached, rfl⟩ := setUserSelectedCharacter_cases ran
    exact carries.put d ((carries.devices d).saved (closed.changed ((carries.devices d).cache p cached)))
  | applyUpdate d =>
    rcases applyUpdate_cases ran with ⟨_, rfl⟩ | ⟨u, later, queue, rfl⟩
    · exact carries
    · have device := carries.devices d
      have sends : sent u := device.updates u (by simp [queue])
      have document : Carries onServer sent { a with document := a.document.map (·.updated u) } :=
        ⟨closed.updated carries.document sends, carries.devices⟩
      apply document.put d
      exact { device with updates := fun v member => device.updates v (by simp [queue, member]) }
  | answerFetch d =>
    rcases answerFetch_cases ran with rfl | rfl
    · exact carries
    · apply carries.put d
      refine { carries.devices d with answers := fun answer member => ?_ }
      rcases List.mem_append.mp member with old | new
      · exact (carries.devices d).answers answer old
      · rw [List.mem_singleton.mp new]
        exact carries.document
  | deliver d answer =>
    have rest := fun document (member : document ∈ (a.devices d).answers.eraseIdx answer) =>
      (carries.devices d).answers document (List.mem_of_mem_eraseIdx member)
    rcases deliver_cases ran with rfl | rfl | ⟨fields, p, answered, decoded, rfl⟩
    · exact carries
    · exact carries.put d { carries.devices d with answers := rest }
    · have learns := closed.decoded ((carries.devices d).answers _ answered) decoded
      exact carries.put d ⟨rest, (carries.devices d).updates, by rintro _ ⟨⟩; exact learns⟩

end Carries

end Account

end ArRobotCode
