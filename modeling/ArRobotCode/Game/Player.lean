import Mathlib.Logic.Function.Iterate

namespace ArRobotCode

inductive PlayerCommand where
  | moveFront | moveBack | turnLeft | turnRight | reset
deriving DecidableEq, Repr

@[ext] structure Offset where
  x : Int
  z : Int
deriving DecidableEq, Repr

def Offset.quarterTurn (o : Offset) : Offset := ⟨o.z, -o.x⟩

/-- The player node once its last action has ended: the yaw in quarter turns, the position in tiles. -/
@[ext] structure PlayerAR where
  yaw : Fin 4
  position : Offset
deriving DecidableEq, Repr

namespace PlayerAR

def simdWorldFront (r : PlayerAR) : Offset := Offset.quarterTurn^[r.yaw] ⟨0, -1⟩

def init (player : PlayerAR) : PlayerAR := { player with position := ⟨0, 0⟩ }

def moveFront (r : PlayerAR) : PlayerAR :=
  { r with position := ⟨r.position.x + -1 * r.simdWorldFront.x, r.position.z + -1 * r.simdWorldFront.z⟩ }

def moveBack (r : PlayerAR) : PlayerAR :=
  { r with position := ⟨r.position.x + r.simdWorldFront.x, r.position.z + r.simdWorldFront.z⟩ }

def turnLeft (r : PlayerAR) : PlayerAR := { r with yaw := r.yaw + 1 }

def turnRight (r : PlayerAR) : PlayerAR := { r with yaw := r.yaw - 1 }

/-- The rotation is absolute, to half a turn; the move is only ordered away from the origin. -/
def reset (r : PlayerAR) : PlayerAR :=
  let rotated := { r with yaw := 2 }
  if rotated.position.x = 0 ∧ rotated.position.z = 0 then rotated
  else { rotated with position := ⟨0, 0⟩ }

def perform (r : PlayerAR) : PlayerCommand → PlayerAR
  | .moveFront => r.moveFront
  | .moveBack => r.moveBack
  | .turnLeft => r.turnLeft
  | .turnRight => r.turnRight
  | .reset => r.reset

theorem reset_eq (r : PlayerAR) : r.reset = ⟨2, ⟨0, 0⟩⟩ := by
  obtain ⟨yaw, x, z⟩ := r
  by_cases home : x = 0 ∧ z = 0 <;> simp [reset, home]

end PlayerAR

end ArRobotCode
