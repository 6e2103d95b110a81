import Mathlib.Logic.Function.Basic
import ArRobotCode.Library.Triples
import ArRobotCode.Swift.Runtime
import ArRobotCode.Entities.Json

namespace ArRobotCode

open Swift DocumentStore

structure UserProperties where
  role : String := ""
  registerDate : Int := 0
  selectedCharacter : String := ""
  completedLevels : List String := []
  achievements : List String := []
deriving DecidableEq, Repr

namespace UserProperties

def asDictionary (p : UserProperties) : Dictionary :=
  .ofList [("Role", .string p.role), ("RegisterDate", .int p.registerDate),
    ("SelectedCharacter", .string p.selectedCharacter), ("CompletedLevels", .ofStrings p.completedLevels),
    ("Achievements", .ofStrings p.achievements)]

/-- The synthesised decoder: every key must be there with a value of its type. -/
def decode (fields : Dictionary) : Option UserProperties := do
  let role ← (← fields "Role").asString
  let registerDate ← (← fields "RegisterDate").asInt
  let selectedCharacter ← (← fields "SelectedCharacter").asString
  let completedLevels ← (← fields "CompletedLevels").asStrings
  let achievements ← (← fields "Achievements").asStrings
  return { role, registerDate, selectedCharacter, completedLevels, achievements }

theorem decode_asDictionary (p : UserProperties) : decode p.asDictionary = some p := by
  have role : p.asDictionary "Role" = some (.string p.role) := rfl
  have registerDate : p.asDictionary "RegisterDate" = some (.int p.registerDate) := rfl
  have selectedCharacter : p.asDictionary "SelectedCharacter" = some (.string p.selectedCharacter) := rfl
  have completedLevels : p.asDictionary "CompletedLevels" = some (.ofStrings p.completedLevels) := rfl
  have achievements : p.asDictionary "Achievements" = some (.ofStrings p.achievements) := rfl
  simp [decode, role, registerDate, selectedCharacter, completedLevels, achievements, Json.asString, Json.asInt]

theorem asDictionary_cases {p : UserProperties} {key : String} {value : Json}
    (listed : p.asDictionary key = some value) :
    (key = "Role" ∧ value = .string p.role) ∨ (key = "RegisterDate" ∧ value = .int p.registerDate) ∨
      (key = "SelectedCharacter" ∧ value = .string p.selectedCharacter) ∨
      (key = "CompletedLevels" ∧ value = .ofStrings p.completedLevels) ∨
      (key = "Achievements" ∧ value = .ofStrings p.achievements) := by
  obtain ⟨before, after, entries, _⟩ := List.lookup_eq_some_iff.mp listed
  have member : (key, value) ∈ before ++ (key, value) :: after := by simp
  rw [← entries] at member
  simpa using member

theorem asDictionary_of_decode {fields : Dictionary} {p : UserProperties} (decoded : decode fields = some p)
    {key : String} {value : Json} (listed : p.asDictionary key = some value) : fields key = some value := by
  simp only [decode, Option.bind_eq_bind, Option.bind_eq_some_iff, Option.pure_def, Option.some.injEq] at decoded
  obtain ⟨_, role, _, asRole, _, date, _, asDate, _, character, _, asCharacter, _, levels, _, asLevels, _,
    achievements, _, asAchievements, rfl⟩ := decoded
  cases Json.asString_eq_some asRole
  cases Json.asInt_eq_some asDate
  cases Json.asString_eq_some asCharacter
  cases Json.asStrings_eq_some asLevels
  cases Json.asStrings_eq_some asAchievements
  rcases asDictionary_cases listed with ⟨rfl, rfl⟩ | ⟨rfl, rfl⟩ | ⟨rfl, rfl⟩ | ⟨rfl, rfl⟩ | ⟨rfl, rfl⟩
  · exact role
  · exact date
  · exact character
  · exact levels
  · exact achievements

end UserProperties

/-- `db` are the updates of the user's document that the server has not applied yet, oldest first; `requests` the
    fetches it has not answered, and `answers` the documents that have not been delivered yet. -/
structure UserRepository where
  userProperties : Option UserProperties := none
  userPropertiesSubject : List UserProperties := []
  db : List Dictionary := []
  requests : Nat := 0
  answers : List (Option Dictionary) := []

namespace UserRepository

def getUserPropertiesFromServer : Method UserRepository Unit := modify fun r => { r with requests := r.requests + 1 }

def saveUserPropertiesToServer : Method UserRepository Unit := do
  let userProperties ← unwrap (← get).userProperties
  -- All five fields are written, whichever one has changed.
  modify fun r => { r with db := r.db ++ [userProperties.asDictionary] }
  getUserPropertiesFromServer

def setUserSelectedCharacter (newCharacterID : String) : Method UserRepository Unit := do
  modify fun r => { r with
    userProperties := r.userProperties.map fun p => { p with selectedCharacter := newCharacterID } }
  saveUserPropertiesToServer

def addCompletedLevel (levelID : String) : Method UserRepository Unit := do
  match (← get).userProperties with
  -- The level is forgotten until the first fetch is answered.
  | none => return
  | some p =>
    if levelID ∈ p.completedLevels then return
    modify fun r => { r with
      userProperties := some { p with completedLevels := p.completedLevels ++ [levelID] } }
    saveUserPropertiesToServer

def fetched (document : Option Dictionary) : Method UserRepository Unit :=
  match document.bind UserProperties.decode with
  | some p => modify fun r => { r with
      userProperties := some p, userPropertiesSubject := r.userPropertiesSubject ++ [p] }
  | none => pure ()

def initial : UserRepository := { requests := 1 }

end UserRepository

structure Account (ι : Type) where
  document : Option Dictionary
  devices : ι → UserRepository

inductive AccountAction (ι : Type) where
  | addCompletedLevel (device : ι) (levelID : String)
  | setUserSelectedCharacter (device : ι) (newCharacterID : String)
  | applyUpdate (device : ι)
  | answerFetch (device : ι)
  | deliver (device : ι) (answer : Nat)
deriving DecidableEq, Repr

namespace Account

variable {ι : Type} [DecidableEq ι]

def initial (document : Option Dictionary) : Account ι := { document, devices := fun _ => .initial }

def onDevice (d : ι) (x : Method UserRepository Unit) : Method (Account ι) Unit :=
  within (fun a => a.devices d) (fun r a => { a with devices := Function.update a.devices d r }) x

/-- The server applies the oldest update of a device: it replaces the listed fields of the document. -/
def applyUpdate (d : ι) : Method (Account ι) Unit := do
  match ((← get).devices d).db with
  | [] => return
  | fields :: later =>
    modify fun a => { a with document := a.document.map (·.updated fields) }
    onDevice d (modify fun r => { r with db := later })

def answerFetch (d : ι) : Method (Account ι) Unit := do
  let document := (← get).document
  onDevice d (modify fun r =>
    if r.requests = 0 then r else { r with requests := r.requests - 1, answers := r.answers ++ [document] })

def deliver (d : ι) (answer : Nat) : Method (Account ι) Unit := do
  match ((← get).devices d).answers[answer]? with
  | none => return
  | some document =>
    onDevice d (modify fun r => { r with answers := r.answers.eraseIdx answer })
    onDevice d (UserRepository.fetched document)

def perform : AccountAction ι → Method (Account ι) Unit
  | .addCompletedLevel d levelID => onDevice d (UserRepository.addCompletedLevel levelID)
  | .setUserSelectedCharacter d newCharacterID => onDevice d (UserRepository.setUserSelectedCharacter newCharacterID)
  | .applyUpdate d => applyUpdate d
  | .answerFetch d => answerFetch d
  | .deliver d answer => deliver d answer

end Account

end ArRobotCode
