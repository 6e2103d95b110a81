import Mathlib.Data.List.Basic
import Std.Data.String.ToNat
import ArRobotCode.Swift.Runtime

namespace ArRobotCode.Scratch

/-- A number of JavaScript other than NaN. -/
inductive Number where
  | finite (value : Rat)
  | infinite (negative : Bool)
deriving DecidableEq, Repr

inductive JsValue where
  | text (value : String)
  | number (value : Number)
  | nan
  | bool (value : Bool)
  | undefined
deriving DecidableEq, Repr

/-- The nearest number of 53 binary digits, the even one of two that are as near. -/
def roundMagnitude (n : Nat) : Nat :=
  let unit := 1 <<< (n.log2 - 52)
  let below := n / unit
  let rest := n % unit
  if 2 * rest < unit ∨ (2 * rest = unit ∧ below % 2 = 0) then below * unit else (below + 1) * unit

def roundDouble (n : Int) : Int :=
  if n < 0 then -(roundMagnitude n.natAbs : Int) else roundMagnitude n.natAbs

namespace Number

def ofInt (n : Int) : Number :=
  if roundMagnitude n.natAbs ≥ 1 <<< 1024 then .infinite (n < 0) else .finite (.ofInt (roundDouble n))

/-- The 32 bits that the operators `>>` and `&` work on. -/
def toInt32 : Number → BitVec 32
  | .finite value => BitVec.ofInt 32 (value.num.tdiv value.den)
  | .infinite _ => 0

end Number

/-- What the texts that are no decimal integers convert to (none for NaN), and how numbers are printed. -/
class JavaScript where
  otherNumber : String → Option Number
  printNumber : Number → String

/-- Enough where all values are texts. -/
@[reducible] def JavaScript.texts : JavaScript where
  otherNumber _ := none
  printNumber _ := ""

/-- A loop counter: the numbers that `Math.round` returns. -/
inductive Count where
  | finite (n : Int)
  | infinite (negative : Bool)
deriving DecidableEq, Repr

namespace Count

def round : Number → Count
  -- The floor of the value and a half.
  | .finite value => .finite ((2 * value.num + value.den) / (2 * value.den))
  | .infinite negative => .infinite negative

def decrement : Count → Count
  | .finite n => .finite (roundDouble (n - 1))
  | .infinite negative => .infinite negative

def nonnegative : Count → Bool
  | .finite n => 0 ≤ n
  | .infinite negative => !negative

end Count

structure Rgb where
  r : Nat
  g : Nat
  b : Nat
deriving DecidableEq, Repr

namespace Color

def decimalToRgb (decimal : Number) : Rgb :=
  let bits := decimal.toInt32
  { r := (bits.sshiftRight 16 &&& 0xFF).toNat
    g := (bits.sshiftRight 8 &&& 0xFF).toNat
    b := (bits &&& 0xFF).toNat }

def hexDigit? (c : Char) : Option Nat :=
  if '0' ≤ c ∧ c ≤ '9' then some (c.toNat - '0'.toNat)
  else if 'a' ≤ c ∧ c ≤ 'f' then some (c.toNat - 'a'.toNat + 10)
  else if 'A' ≤ c ∧ c ≤ 'F' then some (c.toNat - 'A'.toNat + 10)
  else none

def channel (high low : Char) : Option Nat := do
  return 16 * (← hexDigit? high) + (← hexDigit? low)

def withoutHash : List Char → List Char
  | '#' :: digits => digits
  | digits => digits

/-- Three digits are shorthand for six. Any other text is no colour. -/
def hexToRgb (hex : String) : Option Rgb :=
  match withoutHash hex.toList with
  | [r, g, b] => do return ⟨← channel r r, ← channel g g, ← channel b b⟩
  | [r, r', g, g', b, b'] => do return ⟨← channel r r', ← channel g g', ← channel b b'⟩
  | _ => none

end Color

namespace Cast

variable [JavaScript]

def numberOfText (text : String) : Option Number :=
  match Swift.signedDigits text.toList with
  | some n => some (.ofInt n)
  | none => JavaScript.otherNumber text

/-- NaN counts as zero. -/
def toNumber : JsValue → Number
  | .number value => value
  | .text value => (numberOfText value).getD (.ofInt 0)
  | .bool value => .ofInt (if value then 1 else 0)
  | .nan | .undefined => .ofInt 0

def toBoolean : JsValue → Bool
  | .bool value => value
  | .text value => !(value = "" ∨ value = "0" ∨ value.toLower = "false")
  | .number value => value ≠ .ofInt 0
  | .nan | .undefined => false

/-- None stands for the TypeError of reading a channel of null. -/
def toRgbColorList (value : JsValue) : Option Rgb :=
  match value with
  | .text hex =>
    if hex.toList.head? = some '#' then Color.hexToRgb hex else some (Color.decimalToRgb (toNumber value))
  | _ => some (Color.decimalToRgb (toNumber value))

/-- A value as the operand of a concatenation. -/
def printed : JsValue → String
  | .text value => value
  | .number value => JavaScript.printNumber value
  | .nan => "NaN"
  | .bool value => if value then "true" else "false"
  | .undefined => "undefined"

end Cast

end ArRobotCode.Scratch
