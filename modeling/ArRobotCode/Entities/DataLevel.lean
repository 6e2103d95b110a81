import ArRobotCode.Swift.Runtime
import ArRobotCode.Entities.DataTile
import ArRobotCode.Entities.Json

namespace ArRobotCode

open Swift

/-- `uuid` has no default here: a new object draws a random one. -/
structure DataLevel where
  uuid : String
  name : String := ""
  width : Int := 0
  height : Int := 0
  isPublic : Bool := false
  order : Int := 0
  chapter : String := ""
  byUserID : String := ""
  tiles : List DataTile := []
deriving DecidableEq, Repr

namespace DataLevel

def setName (newName : String) : Method DataLevel Unit := modify fun l => { l with name := newName }

def removeWhileAbove (size : Int) : (count : Nat) → Method DataLevel Unit
  | 0 => if 0 > size then throw .removeFromEmpty else pure ()
  | count + 1 =>
    if (count + 1 : Int) > size then do
      modify fun l => { l with tiles := l.tiles.dropLast }
      removeWhileAbove size count
    else pure ()

def appendMissing : (missing : Nat) → Method DataLevel Unit
  | 0 => pure ()
  | missing + 1 => do
    modify fun l => { l with tiles := l.tiles ++ [{}] }
    appendMissing missing

def reAssignTiles : Method DataLevel Unit := do
  modify fun l => { l with tiles := l.tiles.map fun _ => ⟨TypeOfTile.free.rawValue⟩ }
  -- both loops compare with this product, whose factors they do not change
  let size ← checked ((← get).width * (← get).height)
  removeWhileAbove size (← get).tiles.length
  appendMissing (size - (← get).tiles.length).toNat

def setWidth (newWidth : Int) : Method DataLevel Unit := do
  modify fun l => { l with width := newWidth }
  reAssignTiles

def setHeight (newHeight : Int) : Method DataLevel Unit := do
  modify fun l => { l with height := newHeight }
  reAssignTiles

def setPublic (newPublic : Bool) : Method DataLevel Unit := modify fun l => { l with isPublic := newPublic }

def setOrder (newOrder : Int) : Method DataLevel Unit := modify fun l => { l with order := newOrder }

def setChapter (newChapter : String) : Method DataLevel Unit := modify fun l => { l with chapter := newChapter }

def editTile (edit : DataTile → DataTile) (at' : Int) : Method DataLevel Unit := do
  let _ ← subscript (← get).tiles at'
  modify fun l => { l with tiles := l.tiles.modify at'.toNat edit }

def asDictionary (l : DataLevel) : Dictionary :=
  .ofList [("Name", .string l.name), ("UUID", .string l.uuid), ("Width", .int l.width), ("Height", .int l.height),
    ("Public", .bool l.isPublic), ("Order", .int l.order), ("Chapter", .string l.chapter),
    ("Tiles", .array (l.tiles.map fun t => .object [("Type", .int t.type)])), ("ByUserID", .string l.byUserID)]

def new5x5 (uuid name byUserID : String) : DataLevel :=
  { uuid, name, byUserID, width := 5, height := 5, tiles := List.replicate 25 {} }

def TileCount (size : Int) : Prop := 0 ≤ size ∧ size ≤ intMax

instance (size : Int) : Decidable (TileCount size) := inferInstanceAs (Decidable (_ ∧ _))

theorem run_removeWhileAbove {size : Int} (nonneg : 0 ≤ size) {n : Nat} {l : DataLevel}
    (counted : l.tiles.length = n) :
    (removeWhileAbove size n).run l = .ok () { l with tiles := l.tiles.take size.toNat } := by
  induction n generalizing l with
  | zero =>
    have empty : l.tiles.take size.toNat = l.tiles := List.take_of_length_le (by omega)
    have notBelow : ¬ (0 > size) := by omega
    simp only [removeWhileAbove, if_neg notBelow, empty]
    rfl
  | succ n ih =>
    by_cases above : (n + 1 : Int) > size
    · have shorter : l.tiles.dropLast.length = n := by simp [counted]
      have cut : l.tiles.dropLast.take size.toNat = l.tiles.take size.toNat := by
        rw [List.dropLast_eq_take, List.take_take]
        congr 1
        omega
      simp only [removeWhileAbove, if_pos above, EStateM.run_bind, EStateM.run_modify]
      rw [ih (l := { l with tiles := l.tiles.dropLast }) shorter]
      simp only [cut]
    · have whole : l.tiles.take size.toNat = l.tiles := List.take_of_length_le (by omega)
      simp only [removeWhileAbove, if_neg above, whole]
      rfl

theorem run_removeWhileAbove_negative {size : Int} (negative : size < 0) {n : Nat} {l : DataLevel}
    (counted : l.tiles.length = n) :
    (removeWhileAbove size n).run l = .error .removeFromEmpty { l with tiles := [] } := by
  induction n generalizing l with
  | zero =>
    have empty : l.tiles = [] := List.eq_nil_of_length_eq_zero counted
    simp only [removeWhileAbove, if_pos (show 0 > size from negative), ← empty]
    rfl
  | succ n ih =>
    have above : (n + 1 : Int) > size := by omega
    have shorter : l.tiles.dropLast.length = n := by simp [counted]
    simp only [removeWhileAbove, if_pos above, EStateM.run_bind, EStateM.run_modify]
    exact ih (l := { l with tiles := l.tiles.dropLast }) shorter

theorem run_appendMissing (missing : Nat) (l : DataLevel) :
    (appendMissing missing).run l = .ok () { l with tiles := l.tiles ++ List.replicate missing {} } := by
  induction missing generalizing l with
  | zero =>
    simp only [appendMissing, List.replicate_zero, List.append_nil]
    rfl
  | succ missing ih =>
    simp only [appendMissing, EStateM.run_bind, EStateM.run_modify, ih, List.append_assoc,
      List.replicate_succ, List.singleton_append]

theorem tiles_freed (l : DataLevel) :
    (l.tiles.map fun _ => (⟨TypeOfTile.free.rawValue⟩ : DataTile)) = List.replicate l.tiles.length {} := by
  simp only [List.map_const']
  rfl

theorem run_reAssignTiles {l : DataLevel} (count : TileCount (l.width * l.height)) :
    reAssignTiles.run l = .ok () { l with tiles := List.replicate (l.width * l.height).toNat {} } := by
  obtain ⟨nonneg, fits⟩ := count
  have low : intMin ≤ l.width * l.height := by
    have := show intMin ≤ 0 by decide
    omega
  have removed := run_removeWhileAbove nonneg (n := l.tiles.length)
    (l := { l with tiles := List.replicate l.tiles.length {} }) List.length_replicate
  simp only [reAssignTiles, EStateM.run_bind, EStateM.run_modify, EStateM.run_get, run_checked_of_fits low fits,
    tiles_freed, removed, run_appendMissing, List.take_replicate, List.length_replicate,
    List.replicate_append_replicate]
  congr 3
  omega

theorem reAssignTiles_traps {l : DataLevel} (bad : ¬ TileCount (l.width * l.height)) :
    ∃ trap l', reAssignTiles.run l = .error trap l' := by
  simp only [reAssignTiles, EStateM.run_bind, EStateM.run_modify, EStateM.run_get]
  by_cases fits : intMin ≤ l.width * l.height ∧ l.width * l.height ≤ intMax
  · have negative : l.width * l.height < 0 := by
      simp only [TileCount] at bad
      omega
    have emptied := run_removeWhileAbove_negative negative (n := l.tiles.length)
      (l := { l with tiles := List.replicate l.tiles.length {} }) List.length_replicate
    simp only [run_checked_of_fits fits.1 fits.2, tiles_freed, List.length_replicate, emptied]
    exact ⟨_, _, rfl⟩
  · simp only [run_checked_of_overflow fits]
    exact ⟨_, _, rfl⟩

theorem run_setWidth {l : DataLevel} {newWidth : Int} (count : TileCount (newWidth * l.height)) :
    (setWidth newWidth).run l =
      .ok () { l with width := newWidth, tiles := List.replicate (newWidth * l.height).toNat {} } := by
  simp only [setWidth, EStateM.run_bind, EStateM.run_modify]
  exact run_reAssignTiles (l := { l with width := newWidth }) count

theorem setWidth_traps {l : DataLevel} {newWidth : Int} (bad : ¬ TileCount (newWidth * l.height)) :
    ∃ trap l', (setWidth newWidth).run l = .error trap l' := by
  simp only [setWidth, EStateM.run_bind, EStateM.run_modify]
  exact reAssignTiles_traps (l := { l with width := newWidth }) bad

theorem run_setHeight {l : DataLevel} {newHeight : Int} (count : TileCount (l.width * newHeight)) :
    (setHeight newHeight).run l =
      .ok () { l with height := newHeight, tiles := List.replicate (l.width * newHeight).toNat {} } := by
  simp only [setHeight, EStateM.run_bind, EStateM.run_modify]
  exact run_reAssignTiles (l := { l with height := newHeight }) count

theorem setHeight_traps {l : DataLevel} {newHeight : Int} (bad : ¬ TileCount (l.width * newHeight)) :
    ∃ trap l', (setHeight newHeight).run l = .error trap l' := by
  simp only [setHeight, EStateM.run_bind, EStateM.run_modify]
  exact reAssignTiles_traps (l := { l with height := newHeight }) bad

end DataLevel
end ArRobotCode
