import Mathlib.Init

namespace ArRobotCode

inductive TypeOfTile where
  | free | used | start | finish | usedA | usedB | usedC | usedD | usedE
deriving DecidableEq, Repr

def TypeOfTile.rawValue : TypeOfTile → Int
  | .free => 0
  | .used => 1
  | .start => 2
  | .finish => 3
  | .usedA => 4
  | .usedB => 5
  | .usedC => 6
  | .usedD => 7
  | .usedE => 8

/-- The stored type is a plain number: nothing in the class confines it to `TypeOfTile`. -/
structure DataTile where
  type : Int := 0
deriving DecidableEq, Repr

namespace DataTile

def swap (t : DataTile) : DataTile :=
  if t.type = TypeOfTile.free.rawValue then ⟨TypeOfTile.used.rawValue⟩
  else if t.type = TypeOfTile.used.rawValue then ⟨TypeOfTile.free.rawValue⟩
  else if t.type = TypeOfTile.start.rawValue then ⟨TypeOfTile.finish.rawValue⟩
  else ⟨TypeOfTile.free.rawValue⟩

def cycleLeft (t : DataTile) : DataTile :=
  if t.type = TypeOfTile.free.rawValue ∨ t.type = TypeOfTile.start.rawValue ∨ t.type = TypeOfTile.finish.rawValue then t
  else if t.type = TypeOfTile.used.rawValue then ⟨TypeOfTile.usedE.rawValue⟩
  else if t.type = TypeOfTile.usedA.rawValue then ⟨TypeOfTile.used.rawValue⟩
  else if t.type > TypeOfTile.usedA.rawValue ∧ t.type ≤ TypeOfTile.usedE.rawValue then ⟨t.type - 1⟩
  else t

def cycleRight (t : DataTile) : DataTile :=
  if t.type = TypeOfTile.free.rawValue ∨ t.type = TypeOfTile.start.rawValue ∨ t.type = TypeOfTile.finish.rawValue then t
  else if t.type = TypeOfTile.used.rawValue then ⟨TypeOfTile.usedA.rawValue⟩
  else if t.type = TypeOfTile.usedE.rawValue then ⟨TypeOfTile.used.rawValue⟩
  else if t.type ≥ TypeOfTile.usedA.rawValue ∧ t.type < TypeOfTile.usedE.rawValue then ⟨t.type + 1⟩
  else t

def setToStart (_ : DataTile) : DataTile := ⟨TypeOfTile.start.rawValue⟩

end DataTile

end ArRobotCode
