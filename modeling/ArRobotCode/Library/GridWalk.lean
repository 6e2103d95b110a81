import Mathlib.Tactic.Ring

namespace GridWalk

@[ext] structure Cell where
  row : Int
  column : Int
deriving DecidableEq, Repr

inductive Heading where
  | up | right | down | left
deriving DecidableEq, Repr

/-- The cell one step ahead of the origin: `up` is towards row -1, `left` towards column -1. -/
def Heading.ahead : Heading → Cell
  | .up => ⟨-1, 0⟩
  | .right => ⟨0, 1⟩
  | .down => ⟨1, 0⟩
  | .left => ⟨0, -1⟩

def Heading.quarterLeft : Heading → Heading
  | .up => .left
  | .right => .up
  | .down => .right
  | .left => .down

def Heading.quarterRight : Heading → Heading
  | .up => .right
  | .right => .down
  | .down => .left
  | .left => .up

theorem Heading.ahead_injective {h k : Heading} (same : h.ahead = k.ahead) : h = k := by
  cases h <;> cases k <;> first | rfl | simp [Heading.ahead] at same

@[ext] structure Pose where
  cell : Cell
  heading : Heading
deriving DecidableEq, Repr

inductive Step where
  | forward | backward | left | right
deriving DecidableEq, Repr

def Step.moves : Step → Bool
  | .forward | .backward => true
  | .left | .right => false

def Pose.after (p : Pose) : Step → Pose
  | .forward => { p with cell := ⟨p.cell.row + p.heading.ahead.row, p.cell.column + p.heading.ahead.column⟩ }
  | .backward => { p with cell := ⟨p.cell.row - p.heading.ahead.row, p.cell.column - p.heading.ahead.column⟩ }
  | .left => { p with heading := p.heading.quarterLeft }
  | .right => { p with heading := p.heading.quarterRight }

@[simp] theorem Pose.after_turn_cell (p : Pose) {s : Step} (turn : s.moves = false) :
    (p.after s).cell = p.cell := by
  cases s <;> first | rfl | simp [Step.moves] at turn

def Step.inverse : Step → Step
  | .forward => .backward
  | .backward => .forward
  | .left => .right
  | .right => .left

theorem Pose.after_inverse (p : Pose) (s : Step) : (p.after s).after s.inverse = p := by
  obtain ⟨⟨row, column⟩, heading⟩ := p
  cases s with
  | forward => simp [Pose.after, Step.inverse]
  | backward => simp [Pose.after, Step.inverse]
  | left => cases heading <;> rfl
  | right => cases heading <;> rfl

section RowMajor

variable {width height : Int}

def Cell.number (width : Int) (c : Cell) : Int := c.row * width + c.column

def Cell.Inside (width height : Int) (c : Cell) : Prop :=
  0 ≤ c.row ∧ c.row < height ∧ 0 ≤ c.column ∧ c.column < width

instance (c : Cell) : Decidable (c.Inside width height) := inferInstanceAs (Decidable (_ ∧ _))

def Cell.ofNumber (width k : Int) : Cell := ⟨k.tdiv width, k.tmod width⟩

theorem Cell.Inside.number_bounds {c : Cell} (inside : c.Inside width height) :
    0 ≤ c.number width ∧ c.number width < width * height := by
  obtain ⟨row_nonneg, row_lt, column_nonneg, column_lt⟩ := inside
  have positive : 0 ≤ width := by omega
  have below : 0 ≤ c.row * width := Int.mul_nonneg row_nonneg positive
  have above : (c.row + 1) * width ≤ height * width := Int.mul_le_mul_of_nonneg_right (by omega) positive
  have spread : (c.row + 1) * width = c.row * width + width := by ring
  have swap : height * width = width * height := Int.mul_comm _ _
  simp only [Cell.number]
  omega

theorem Cell.Inside.ofNumber_number {c : Cell} (inside : c.Inside width height) :
    Cell.ofNumber width (c.number width) = c := by
  obtain ⟨row_nonneg, _, column_nonneg, column_lt⟩ := inside
  have nonneg : 0 ≤ c.number width :=
    Int.add_nonneg (Int.mul_nonneg row_nonneg (by omega)) column_nonneg
  have shape : c.number width = c.column + width * c.row := by simp only [Cell.number]; ring
  have quotient : c.number width / width = c.row := by
    rw [shape, Int.add_mul_ediv_left _ _ (by omega : width ≠ 0), Int.ediv_eq_zero_of_lt column_nonneg column_lt]
    omega
  have remainder : c.number width % width = c.column := by
    rw [shape, Int.add_mul_emod_self_left, Int.emod_eq_of_lt column_nonneg column_lt]
  ext
  · simp only [Cell.ofNumber]
    rw [Int.tdiv_eq_ediv_of_nonneg nonneg, quotient]
  · simp only [Cell.ofNumber]
    rw [Int.tmod_eq_emod_of_nonneg nonneg, remainder]

theorem Cell.ofNumber_inside {k : Int} (positive : 0 < width) (nonneg : 0 ≤ k) (bound : k < width * height) :
    (Cell.ofNumber width k).Inside width height := by
  simp only [Cell.Inside, Cell.ofNumber, Int.tdiv_eq_ediv_of_nonneg nonneg, Int.tmod_eq_emod_of_nonneg nonneg]
  refine ⟨Int.ediv_nonneg nonneg (by omega), ?_, Int.emod_nonneg _ (by omega), Int.emod_lt_of_pos _ positive⟩
  exact Int.ediv_lt_of_lt_mul positive (by rw [Int.mul_comm]; exact bound)

theorem Cell.number_ofNumber {k : Int} (nonneg : 0 ≤ k) : (Cell.ofNumber width k).number width = k := by
  simp only [Cell.number, Cell.ofNumber, Int.tdiv_eq_ediv_of_nonneg nonneg, Int.tmod_eq_emod_of_nonneg nonneg]
  rw [Int.mul_comm]
  exact Int.mul_ediv_add_emod k width

theorem Cell.Inside.number_lt_iff {c d : Cell} (first : c.Inside width height) (second : d.Inside width height) :
    c.number width < d.number width ↔ c.row < d.row ∨ (c.row = d.row ∧ c.column < d.column) := by
  obtain ⟨_, _, c_nonneg, c_lt⟩ := first
  obtain ⟨_, _, d_nonneg, d_lt⟩ := second
  simp only [Cell.number]
  rcases Int.lt_trichotomy c.row d.row with less | equal | greater
  · have gap : (c.row + 1) * width ≤ d.row * width := Int.mul_le_mul_of_nonneg_right (by omega) (by omega)
    have spread : (c.row + 1) * width = c.row * width + width := by ring
    omega
  · rw [equal]
    omega
  · have gap : (d.row + 1) * width ≤ c.row * width := Int.mul_le_mul_of_nonneg_right (by omega) (by omega)
    have spread : (d.row + 1) * width = d.row * width + width := by ring
    omega

end RowMajor

end GridWalk
