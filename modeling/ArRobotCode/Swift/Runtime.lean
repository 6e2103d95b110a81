import ArRobotCode.Library.Triples

namespace ArRobotCode.Swift

inductive Trap where
  | indexOutOfRange
  | invalidRange
  | unexpectedNil
  | arithmeticOverflow
  | divisionByZero
  | removeFromEmpty
deriving DecidableEq, Repr

/-- Code with access to the fields `σ` of an object. A trap keeps the fields as they were then. -/
abbrev Method (σ α : Type) := EStateM Trap σ α

variable {σ τ α : Type}

def within (part : σ → τ) (put : τ → σ → σ) (x : Method τ α) : Method σ α := fun s =>
  match x.run (part s) with
  | .ok a t => .ok a (put t s)
  | .error trap t => .error trap (put t s)

theorem run_within (part : σ → τ) (put : τ → σ → σ) (x : Method τ α) (s : σ) :
    (within part put x).run s = match x.run (part s) with
      | .ok a t => .ok a (put t s)
      | .error trap t => .error trap (put t s) := rfl

def intMin : Int := -9223372036854775808
def intMax : Int := 9223372036854775807

def checked (n : Int) : Method σ Int :=
  if intMin ≤ n ∧ n ≤ intMax then pure n else throw .arithmeticOverflow

def unwrap (value : Option α) : Method σ α :=
  match value with
  | some a => pure a
  | none => throw .unexpectedNil

def at? (xs : List α) (i : Int) : Option α :=
  if 0 ≤ i then xs[i.toNat]? else none

def subscript (xs : List α) (i : Int) : Method σ α :=
  match at? xs i with
  | some a => pure a
  | none => throw .indexOutOfRange

@[simp] theorem run_unwrap_some (a : α) (s : σ) : (unwrap (some a)).run s = .ok a s := rfl
@[simp] theorem run_unwrap_none (s : σ) : (unwrap (none : Option α)).run s = .error .unexpectedNil s := rfl

theorem run_checked_of_fits {n : Int} (low : intMin ≤ n) (high : n ≤ intMax) (s : σ) :
    (checked n).run s = .ok n s := by
  unfold checked
  rw [if_pos ⟨low, high⟩]
  rfl

theorem run_checked_of_overflow {n : Int} (overflow : ¬ (intMin ≤ n ∧ n ≤ intMax)) (s : σ) :
    (checked n).run s = .error .arithmeticOverflow s := by
  unfold checked
  rw [if_neg overflow]
  rfl

theorem run_subscript_of_some {xs : List α} {i : Int} {a : α} (found : at? xs i = some a) (s : σ) :
    (subscript xs i).run s = .ok a s := by
  unfold subscript
  rw [found]
  rfl

theorem run_subscript_of_none {xs : List α} {i : Int} (missing : at? xs i = none) (s : σ) :
    (subscript xs i).run s = .error .indexOutOfRange s := by
  unfold subscript
  rw [missing]
  rfl

section Reads

open Trapping

variable {pre : σ → Prop}

theorem triple_checked (n : Int) : Triple pre (checked n) (fun _ => pre) fun _ _ => True := by
  unfold checked
  split
  · exact Triple.pure fun _ start => start
  · exact Triple.throw fun _ _ => trivial

theorem triple_unwrap (value : Option α) : Triple pre (unwrap value) (fun _ => pre) fun _ _ => True := by
  unfold unwrap
  split
  · exact Triple.pure fun _ start => start
  · exact Triple.throw fun _ _ => trivial

theorem triple_subscript (xs : List α) (i : Int) : Triple pre (subscript xs i) (fun _ => pre) fun _ _ => True := by
  unfold subscript
  split
  · exact Triple.pure fun _ start => start
  · exact Triple.throw fun _ _ => trivial

end Reads

theorem at?_isSome_iff (xs : List α) (i : Int) : (at? xs i).isSome ↔ 0 ≤ i ∧ i < xs.length := by
  unfold at?
  split
  · simp only [List.getElem?_eq_some_iff, Option.isSome_iff_exists]
    constructor
    · intro given
      rcases given with ⟨_, bound, _⟩
      omega
    · intro given
      rcases given with ⟨_, bound⟩
      have bound' : i.toNat < xs.length := by omega
      exact ⟨xs[i.toNat], bound', rfl⟩
  · simp only [Option.isSome_none, Bool.false_eq_true, false_iff]
    omega

theorem at?_of_bounds {xs : List α} {i : Int} (nonneg : 0 ≤ i) (bound : i < xs.length) :
    ∃ a, at? xs i = some a :=
  Option.isSome_iff_exists.mp ((at?_isSome_iff xs i).mpr ⟨nonneg, bound⟩)

@[simp] theorem at?_natCast (xs : List α) (i : Nat) : at? xs i = xs[i]? := by
  simp [at?]

theorem getElem?_of_at? {xs : List α} {i : Int} {a : α} (found : at? xs i = some a) : xs[i.toNat]? = some a := by
  unfold at? at found
  split at found
  · exact found
  · cases found

theorem at?_set {xs : List α} {i : Int} {a b : α} (found : at? xs i = some a) : at? (xs.set i.toNat b) i = some b := by
  have bounds := (at?_isSome_iff xs i).mp (by rw [found]; rfl)
  have bound : i.toNat < xs.length := by omega
  simp [at?, bounds.1, bound]

def digit? (c : Char) : Option Nat :=
  if '0' ≤ c ∧ c ≤ '9' then some (c.toNat - '0'.toNat) else none

def digitsFrom (value : Nat) : List Char → Option Nat
  | [] => some value
  | c :: cs => do digitsFrom (10 * value + (← digit? c)) cs

def digits : List Char → Option Nat
  | [] => none
  | c :: cs => digitsFrom 0 (c :: cs)

def signedDigits : List Char → Option Int
  | '-' :: cs => (digits cs).map fun n => -(n : Int)
  | '+' :: cs => (digits cs).map Int.ofNat
  | cs => (digits cs).map Int.ofNat

/-- `Int(_:)` on a text: an optional sign and decimal digits, within 64 bits. -/
def parseInt (text : String) : Option Int :=
  (signedDigits text.toList).filter fun n => intMin ≤ n ∧ n ≤ intMax

theorem parseInt_bounds {text : String} {n : Int} (parsed : parseInt text = some n) :
    intMin ≤ n ∧ n ≤ intMax := by
  have fits := (Option.filter_eq_some_iff.mp parsed).2
  simpa using fits

theorem digitsFrom_eq {cs : List Char} (digital : ∀ c ∈ cs, c.isDigit = true) (value : Nat) :
    digitsFrom value cs = some (Nat.ofDigitChars 10 cs value) := by
  induction cs generalizing value with
  | nil => simp [digitsFrom]
  | cons c cs ih =>
    have digit : digit? c = some (c.toNat - '0'.toNat) := by
      have bounds := digital c (by simp)
      simp only [Char.isDigit, Bool.and_eq_true, decide_eq_true_eq] at bounds
      exact if_pos bounds
    have rest := ih (fun d member => digital d (by simp [member])) (10 * value + (c.toNat - '0'.toNat))
    simp only [digitsFrom, digit, Nat.ofDigitChars_cons]
    exact rest

theorem signedDigits_eq {cs : List Char} (digital : ∀ c ∈ cs, c.isDigit = true) (some? : cs ≠ []) :
    signedDigits cs = some (Nat.ofDigitChars 10 cs 0 : Int) := by
  unfold signedDigits
  split
  · exact absurd (digital '-' (by simp)) (by decide)
  · exact absurd (digital '+' (by simp)) (by decide)
  · cases cs with
    | nil => exact absurd rfl some?
    | cons c cs =>
      simp only [digits, digitsFrom_eq digital]
      rfl

theorem parseInt_toString {n : Nat} (fits : (n : Int) ≤ intMax) : parseInt (toString n) = some (n : Int) := by
  have digital : ∀ c ∈ Nat.toDigits 10 n, c.isDigit = true := fun c member =>
    Nat.isDigit_of_mem_toDigits (by decide) (by decide) member
  have low : intMin ≤ (n : Int) := by
    have := show intMin ≤ 0 by decide
    omega
  rw [parseInt, Nat.toString_eq_ofList_toDigits, String.toList_ofList, signedDigits_eq digital Nat.toDigits_ne_nil,
    Nat.ofDigitChars_ten_toDigits]
  simp [low, fits]

/-- Where a separator stands alone: one that is followed by an extending scalar (a combining mark, a joiner) or
    follows a prepended one is part of a longer character. -/
class Graphemes where
  isExtending : Char → Bool
  isPrepended : Char → Bool
  ascii_extending : ∀ c : Char, c.toNat < 128 → isExtending c = false
  ascii_prepended : ∀ c : Char, c.toNat < 128 → isPrepended c = false

@[reducible] def Graphemes.marks : Graphemes where
  isExtending c := 0x300 ≤ c.toNat && c.toNat ≤ 0x36F
  isPrepended c := 0x600 ≤ c.toNat && c.toNat ≤ 0x605
  ascii_extending c ascii := by
    have below : ¬ 0x300 ≤ c.toNat := by omega
    simp [below]
  ascii_prepended c ascii := by
    have below : ¬ 0x600 ≤ c.toNat := by omega
    simp [below]

section Split

variable [Graphemes]

/-- `split(separator:)` keeps the pieces between separators that are not empty. -/
def splitFrom (separator : Char) (prepended : Bool) (piece : List Char) : List Char → List (List Char)
  | [] => if piece = [] then [] else [piece]
  | c :: cs =>
    if c = separator ∧ prepended = false ∧ cs.head?.any Graphemes.isExtending = false then
      (if piece = [] then [] else [piece]) ++ splitFrom separator (Graphemes.isPrepended c) [] cs
    else splitFrom separator (Graphemes.isPrepended c) (piece ++ [c]) cs

def split (text : String) (separator : Char) : List String :=
  (splitFrom separator false [] text.toList).map String.ofList

end Split

example : @split .marks "b1 moveFrontIf  4" ' ' = ["b1", "moveFrontIf", "4"] := by decide
example : @split .marks "b1 turnLeft \u0301" ' ' = ["b1", "turnLeft \u0301"] := by decide
example : (parseInt "-12", parseInt "+7", parseInt "", parseInt "1x") = (some (-12), some 7, none, none) := by decide

end ArRobotCode.Swift
