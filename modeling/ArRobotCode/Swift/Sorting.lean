import Mathlib.Data.Char
import Mathlib.Data.List.Lex
import Mathlib.Data.List.Sort

namespace ArRobotCode.Swift

def Scalars : Type := List Char

instance : LinearOrder Scalars := inferInstanceAs (LinearOrder (List Char))

/-- Two texts are compared by the scalars of their canonical forms. -/
class CanonicalForm where
  scalars : String → Scalars

@[reducible] def CanonicalForm.composed : CanonicalForm := ⟨String.toList⟩

section Comparison

variable [CanonicalForm]

def equal (a b : String) : Bool := decide (CanonicalForm.scalars a = CanonicalForm.scalars b)

def less (a b : String) : Bool := decide (CanonicalForm.scalars a < CanonicalForm.scalars b)

end Comparison

/-- `sort(by:)` rearranges an array, and orders it when its test compares a key. Equal elements may change places. -/
class ArraySort where
  sort {α : Type} (areInIncreasingOrder : α → α → Bool) (xs : List α) : List α
  perm {α : Type} (areInIncreasingOrder : α → α → Bool) (xs : List α) : (sort areInIncreasingOrder xs).Perm xs
  ordered {α κ : Type} [LinearOrder κ] (key : α → κ) (xs : List α) :
    (sort (fun a b => decide (key a < key b)) xs).Pairwise fun a b => key a ≤ key b

@[reducible] def ArraySort.insertion : ArraySort where
  sort areInIncreasingOrder xs := xs.insertionSort fun a b => areInIncreasingOrder b a = false
  perm areInIncreasingOrder xs := List.perm_insertionSort _ xs
  ordered {α κ} _ key xs := by
    have order (a b : α) : decide (key b < key a) = false ↔ key a ≤ key b := by simp
    have total : Std.Total fun a b : α => decide (key b < key a) = false :=
      ⟨fun a b => by simpa [order] using le_total (key a) (key b)⟩
    have trans : IsTrans α fun a b : α => decide (key b < key a) = false :=
      ⟨fun a b c first second => (order a c).mpr (le_trans ((order a b).mp first) ((order b c).mp second))⟩
    have sorted := List.pairwise_insertionSort (fun a b : α => decide (key b < key a) = false) xs
    exact sorted.imp fun {a b} => (order a b).mp

end ArRobotCode.Swift
