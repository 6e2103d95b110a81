import ArRobotCode.Entities.Decoding
import ArRobotCode.Server.Repository

namespace ArRobotCode

open Swift

namespace Server

/-- A slice. `encoding/json` writes the nil slice as null and an empty one as an array. -/
abbrev Slice (α : Type) := Option (List α)

namespace Slice

variable {α : Type}

def append (slice : Slice α) (item : α) : Slice α := some (slice.getD [] ++ [item])

def encode (slice : Slice α) (item : α → Json) : Json :=
  match slice with
  | none => .null
  | some items => .array (items.map item)

theorem foldl_append (items : List α) (slice : Slice α) :
    items.foldl append slice = if items = [] then slice else some (slice.getD [] ++ items) := by
  induction items generalizing slice with
  | nil => rfl
  | cons item items ih =>
    rw [List.foldl_cons, ih]
    cases items with
    | nil => rfl
    | cons next items => simp [append]

end Slice

/-- A level as a row of the query holds it: its tiles are a slice again. -/
structure Row where
  level : Level
  tiles : Slice Tile
  holds : tiles.getD [] = level.tiles

def Tile.encode (t : Tile) : Json := .object [("Type", .int t.type)]

def Row.encode (row : Row) : Json :=
  .object [("Name", .string row.level.name), ("Width", .int row.level.width), ("Height", .int row.level.height),
    ("Tiles", row.tiles.encode Tile.encode)]

/-- The slice is declared and not made, so that it is nil until the first row. -/
def CouchBaseRepository.getLevels (rows : List Row) : Slice Row := rows.foldl Slice.append none

namespace API

/-- The status and the body of the response. The keys of a map are written in alphabetical order. -/
def getAllLevels : Except String (Slice Row) → Nat × Json
  | .error _ => (500, .string "Error")
  | .ok levels => (200, .object [("code", .string "200"), ("data", levels.encode Row.encode), ("msg", .string "OK")])

end API

end Server

structure APIResponse where
  msg : String := ""
  code : String := ""
  data : List DataLevel := []
deriving DecidableEq, Repr

def DataLevel.decodeObject (json : Json) : Option DataLevel := json.asObject.bind DataLevel.decode

def APIResponse.decode (json : Json) : Option APIResponse := do
  let container ← json.asObject
  let msg ← container.decode "msg" Json.asString
  let code ← container.decode "code" Json.asString
  let data ← container.decode "data" fun json => json.asArray.bind fun levels => levels.mapM DataLevel.decodeObject
  return { msg, code, data }

open Server

namespace DataLevel

theorem decode_row (row : Row) : decodeObject row.encode = none := by
  cases decoded : decodeObject row.encode with
  | none => rfl
  | some l =>
    obtain ⟨_, opened, read⟩ := Option.bind_eq_some_iff.mp decoded
    cases opened
    cases decode_uuid read

theorem mapM_decode_rows (row : Row) (rows : List Row) :
    ((row :: rows).map Row.encode).mapM decodeObject = none := by
  rw [List.map_cons, List.mapM_cons, decode_row]
  rfl

theorem decode_asDictionary (l : DataLevel)
    (fits : ∀ n ∈ [l.width, l.height, l.order] ++ l.tiles.map (·.type), intMin ≤ n ∧ n ≤ intMax) :
    decode l.asDictionary = some l := by
  have number : ∀ n ∈ [l.width, l.height, l.order] ++ l.tiles.map (·.type),
      (Json.int n).decodeInt = some n := by
    intro n member
    have both := fits n member
    simp [Json.decodeInt, Json.asInt, Option.filter, both]
  have tile : ∀ t ∈ l.tiles, DataTile.decode (.object [("Type", .int t.type)]) = some t := by
    intro t member
    have read := number t.type (List.mem_append_right _ (List.mem_map_of_mem member))
    exact Option.bind_eq_some_iff.mpr ⟨t.type, read, rfl⟩
  rw [decode_eq_some]
  refine ⟨rfl, rfl, number _ (by simp), number _ (by simp), rfl, number _ (by simp), rfl, ?_, rfl⟩
  exact Json.mapM_of_inverse tile

end DataLevel

namespace APIResponse

theorem data_of_decode {fields : List (String × Json)} {response : APIResponse}
    (decoded : decode (.object fields) = some response) :
    Dictionary.decode (.ofList fields) "data" (fun json =>
      json.asArray.bind fun levels => levels.mapM DataLevel.decodeObject) = some response.data := by
  simp only [decode, Json.asObject, Option.bind_eq_bind, Option.bind_some, Option.bind_eq_some_iff, Option.pure_def,
    Option.some.injEq] at decoded
  obtain ⟨_, _, _, _, data, read, rfl⟩ := decoded
  exact read

theorem decode_getAllLevels (rows : List Row) :
    decode (API.getAllLevels (.ok (CouchBaseRepository.getLevels rows))).2 = none := by
  cases decoded : decode (API.getAllLevels (.ok (CouchBaseRepository.getLevels rows))).2 with
  | none => rfl
  | some response =>
    have data := data_of_decode decoded
    rw [CouchBaseRepository.getLevels, Slice.foldl_append] at data
    cases rows with
    | nil => cases data
    | cons row rows =>
      have levels : ((row :: rows).map Row.encode).mapM DataLevel.decodeObject = some response.data := data
      rw [DataLevel.mapM_decode_rows] at levels
      cases levels

/-- The app reads the levels that the server sends for the rows of its query. -/
def Reads (rows : List Row) : Prop :=
  ∃ response, decode (API.getAllLevels (.ok (CouchBaseRepository.getLevels rows))).2 = some response ∧
    response.data.map (fun l => (l.name, l.width, l.height, l.tiles.map (·.type))) =
      rows.map fun row => (row.level.name, row.level.width, row.level.height, row.level.tiles.map (·.type))

/-- No list of levels can be read: a null is no array, and a level of the server has no UUID. -/
theorem not_reads (rows : List Row) : ¬ Reads rows := by
  intro reads
  obtain ⟨response, decoded, _⟩ := reads
  rw [decode_getAllLevels] at decoded
  cases decoded

theorem empty_list_not_read : ¬ ∀ rows, Reads rows := by
  intro reads
  obtain ⟨response, decoded, _⟩ := reads []
  have null : decode (API.getAllLevels (.ok (CouchBaseRepository.getLevels []))).2 = none := rfl
  rw [null] at decoded
  cases decoded

end APIResponse

end ArRobotCode
