import ArRobotCode.Entities.DataLevel

namespace ArRobotCode

open Swift

namespace Json

def asBool : Json → Option Bool
  | .bool value => some value
  | _ => none

def asObject : Json → Option Dictionary
  | .object fields => some (.ofList fields)
  | _ => none

def decodeInt (json : Json) : Option Int := json.asInt.filter fun n => intMin ≤ n ∧ n ≤ intMax

end Json

def DataTile.decode (json : Json) : Option DataTile := do
  let container ← json.asObject
  let type ← (← container "Type").decodeInt
  return { type }

def Dictionary.decode {α : Type} (container : Dictionary) (key : String) (value : Json → Option α) : Option α :=
  (container key).bind value

/-- The synthesised `init(from:)`: each key has to be there with a value of its type. -/
def DataLevel.decode (container : Dictionary) : Option DataLevel := do
  let name ← container.decode "Name" Json.asString
  let uuid ← container.decode "UUID" Json.asString
  let width ← container.decode "Width" Json.decodeInt
  let height ← container.decode "Height" Json.decodeInt
  let isPublic ← container.decode "Public" Json.asBool
  let order ← container.decode "Order" Json.decodeInt
  let chapter ← container.decode "Chapter" Json.asString
  let tiles ← container.decode "Tiles" fun json => json.asArray.bind fun tiles => tiles.mapM DataTile.decode
  let byUserID ← container.decode "ByUserID" Json.asString
  return { uuid, name, width, height, isPublic, order, chapter, byUserID, tiles }

namespace DataLevel

variable {container : Dictionary} {l : DataLevel}

theorem decode_eq_some : decode container = some l ↔
    container.decode "Name" Json.asString = some l.name ∧ container.decode "UUID" Json.asString = some l.uuid ∧
    container.decode "Width" Json.decodeInt = some l.width ∧
    container.decode "Height" Json.decodeInt = some l.height ∧
    container.decode "Public" Json.asBool = some l.isPublic ∧ container.decode "Order" Json.decodeInt = some l.order ∧
    container.decode "Chapter" Json.asString = some l.chapter ∧
    (container.decode "Tiles" fun json => json.asArray.bind fun tiles => tiles.mapM DataTile.decode) = some l.tiles ∧
    container.decode "ByUserID" Json.asString = some l.byUserID := by
  simp only [decode, Option.bind_eq_bind, Option.bind_eq_some_iff, Option.pure_def, Option.some.injEq]
  constructor
  · intro given
    rcases given with
      ⟨_, name, _, uuid, _, width, _, height, _, isPublic, _, order, _, chapter, _, tiles, _, byUserID, rfl⟩
    exact ⟨name, uuid, width, height, isPublic, order, chapter, tiles, byUserID⟩
  · intro given
    rcases given with ⟨name, uuid, width, height, isPublic, order, chapter, tiles, byUserID⟩
    exact ⟨_, name, _, uuid, _, width, _, height, _, isPublic, _, order, _, chapter, _, tiles, _, byUserID, rfl⟩

theorem decode_uuid (decoded : decode container = some l) : container "UUID" = some (.string l.uuid) := by
  obtain ⟨json, listed, text⟩ := Option.bind_eq_some_iff.mp (decode_eq_some.mp decoded).2.1
  rw [listed, Json.asString_eq_some text]

end DataLevel

end ArRobotCode
