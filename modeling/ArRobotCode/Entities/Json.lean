import ArRobotCode.Library.DocumentStore

namespace ArRobotCode

inductive Json where
  | null
  | bool (value : Bool)
  | int (value : Int)
  | string (value : String)
  | array (items : List Json)
  | object (fields : List (String × Json))
deriving Repr

abbrev Dictionary := DocumentStore.Fields Json

namespace Json

def asInt : Json → Option Int
  | .int value => some value
  | _ => none

def asString : Json → Option String
  | .string value => some value
  | _ => none

def asArray : Json → Option (List Json)
  | .array items => some items
  | _ => none

def ofStrings (values : List String) : Json := .array (values.map .string)

def asStrings (json : Json) : Option (List String) := do
  (← json.asArray).mapM asString

theorem asString_eq_some {json : Json} {value : String} (decoded : json.asString = some value) :
    json = .string value := by
  cases json <;> simp_all [asString]

theorem asArray_eq_some {json : Json} {items : List Json} (decoded : json.asArray = some items) :
    json = .array items := by
  cases json <;> simp_all [asArray]

theorem asInt_eq_some {json : Json} {value : Int} (decoded : json.asInt = some value) : json = .int value := by
  cases json <;> simp_all [asInt]

theorem mapM_of_inverse {α β : Type} {read : β → Option α} {write : α → β} {items : List α}
    (inverse : ∀ item ∈ items, read (write item) = some item) : (items.map write).mapM read = some items := by
  induction items with
  | nil => rfl
  | cons item items ih =>
    have rest := ih fun other member => inverse other (List.mem_cons_of_mem item member)
    rw [List.map_cons, List.mapM_cons, inverse item List.mem_cons_self, rest]
    rfl

theorem mapM_asString_map (values : List String) : (values.map Json.string).mapM asString = some values :=
  mapM_of_inverse fun _ _ => rfl

theorem eq_map_of_mapM_asString {items : List Json} {values : List String}
    (decoded : items.mapM asString = some values) : items = values.map .string := by
  induction items generalizing values with
  | nil => simp_all
  | cons item items ih =>
    simp only [List.mapM_cons, Option.bind_eq_bind, Option.bind_eq_some_iff, Option.pure_def,
      Option.some.injEq] at decoded
    obtain ⟨value, head, rest, tail, rfl⟩ := decoded
    rw [asString_eq_some head, ih tail]
    rfl

@[simp] theorem asStrings_ofStrings (values : List String) : (ofStrings values).asStrings = some values :=
  mapM_asString_map values

theorem asStrings_eq_some {json : Json} {values : List String} (decoded : json.asStrings = some values) :
    json = ofStrings values := by
  simp only [asStrings, Option.bind_eq_bind, Option.bind_eq_some_iff] at decoded
  obtain ⟨items, array, strings⟩ := decoded
  rw [asArray_eq_some array, eq_map_of_mapM_asString strings]
  rfl

end Json

end ArRobotCode
