import Mathlib.Data.Bool.AllAny
import Mathlib.Tactic.SplitIfs
import ArRobotCode.Scratch.Cast

namespace ArRobotCode.Scratch

def soup : List Char :=
  ("!#$%()*+,-./:;=?@[]^_`\x7b|\x7d~" ++
    "ABCDEFGHIJKLMNOPQRSTUVWXYZabcdefghijklmnopqrstuvwxyz0123456789").toList

structure BlockId where
  text : String
  nonempty : text ≠ ""
  legal : ∀ c ∈ text.toList, c ∈ soup
deriving DecidableEq

theorem soup_ascii : ∀ c ∈ soup, c.toNat < 128 ∧ c ≠ ' ' :=
  List.all_iff_forall_prop.mp (by decide +kernel)

/-- An entry of a stack as the operand of a concatenation: the entry may be missing or null. -/
def printedEntry : Option (Option BlockId) → String
  | none => "undefined"
  | some none => "null"
  | some (some id) => id.text

theorem printedEntry_ascii (entry : Option (Option BlockId)) :
    ∀ c ∈ (printedEntry entry).toList, c.toNat < 128 ∧ c ≠ ' ' := by
  rcases entry with _ | _ | id
  · exact List.all_iff_forall_prop.mp (by decide)
  · exact List.all_iff_forall_prop.mp (by decide)
  · exact fun c member => soup_ascii c (id.legal c member)

/-- An array compared with a string is joined with commas first. -/
def Rgb.joined (color : Rgb) : String := color.r.repr ++ "," ++ color.g.repr ++ "," ++ color.b.repr

def colorToCode (color : Rgb) : String :=
  if color.joined = "181,121,139" then "1"
  else if color.joined = "255,151,105" then "2"
  else if color.joined = "117,196,191" then "3"
  else if color.joined = "161,204,97" then "4"
  else if color.joined = "110,79,150" then "5"
  else "0"

def sliderColour (position : Int) : String :=
  match position with
  | 1 => "#B5798B"
  | 2 => "#FF9769"
  | 3 => "#75C4BF"
  | 4 => "#A1CC61"
  | 5 => "#6E4F96"
  | _ => "#B5798B"

section Primitives

variable [JavaScript]

open Cast

/-- The shape of the eight messages. -/
def instructionMessage (crtBlockId instruction argument : String) : String :=
  crtBlockId ++ (" " ++ instruction ++ " ") ++ argument

def conditionalMessage (crtBlockId instruction : String) (COLOR : JsValue) : Option String :=
  (toRgbColorList COLOR).map fun color => instructionMessage crtBlockId instruction (colorToCode color)

def moveSteps (crtBlockId : String) (STEPS : JsValue) : Option String :=
  instructionMessage crtBlockId "moveFront" (printed STEPS)

def moveStepsBack (crtBlockId : String) (STEPS : JsValue) : Option String :=
  instructionMessage crtBlockId "moveBack" (printed STEPS)

def turnRight (crtBlockId : String) (DEGREES : JsValue) : Option String :=
  instructionMessage crtBlockId "turnRight" (printed DEGREES)

def turnLeft (crtBlockId : String) (DEGREES : JsValue) : Option String :=
  instructionMessage crtBlockId "turnLeft" (printed DEGREES)

def movestepsIf (crtBlockId : String) (COLOR : JsValue) : Option String :=
  conditionalMessage crtBlockId "moveFrontIf" COLOR

def movestepsBackIf (crtBlockId : String) (COLOR : JsValue) : Option String :=
  conditionalMessage crtBlockId "moveBackIf" COLOR

def turnleftIf (crtBlockId : String) (COLOR : JsValue) : Option String :=
  conditionalMessage crtBlockId "turnLeftIf" COLOR

def turnrightIf (crtBlockId : String) (COLOR : JsValue) : Option String :=
  conditionalMessage crtBlockId "turnRightIf" COLOR

end Primitives

inductive RobotBlock where
  | moveSteps | moveStepsBack | turnRight | turnLeft
  | movestepsIf | movestepsBackIf | turnleftIf | turnrightIf
deriving DecidableEq, Repr

namespace RobotBlock

def instruction : RobotBlock → String
  | moveSteps => "moveFront"
  | moveStepsBack => "moveBack"
  | turnRight => "turnRight"
  | turnLeft => "turnLeft"
  | movestepsIf => "moveFrontIf"
  | movestepsBackIf => "moveBackIf"
  | turnleftIf => "turnLeftIf"
  | turnrightIf => "turnRightIf"

def input : RobotBlock → String
  | moveSteps | moveStepsBack => "STEPS"
  | turnRight | turnLeft => "DEGREES"
  | movestepsIf | movestepsBackIf | turnleftIf | turnrightIf => "COLOR"

variable [JavaScript]

/-- The message that a block posts; none when its colour does not convert. -/
def message : RobotBlock → String → JsValue → Option String
  | moveSteps => Scratch.moveSteps
  | moveStepsBack => Scratch.moveStepsBack
  | turnRight => Scratch.turnRight
  | turnLeft => Scratch.turnLeft
  | movestepsIf => Scratch.movestepsIf
  | movestepsBackIf => Scratch.movestepsBackIf
  | turnleftIf => Scratch.turnleftIf
  | turnrightIf => Scratch.turnrightIf

def argument (block : RobotBlock) (value : JsValue) : Option String :=
  match block with
  | moveSteps | moveStepsBack | turnRight | turnLeft => some (Cast.printed value)
  | movestepsIf | movestepsBackIf | turnleftIf | turnrightIf => (Cast.toRgbColorList value).map colorToCode

theorem message_eq (block : RobotBlock) (crtBlockId : String) (value : JsValue) :
    block.message crtBlockId value =
      (block.argument value).map (instructionMessage crtBlockId block.instruction) := by
  cases block <;> first
    | rfl
    | (simp only [message, argument, Option.map_map]; rfl)

end RobotBlock

section Codes

theorem parts_of_append {α : Type} {separator : α} {first first' rest rest' : List α} (free : separator ∉ first)
    (free' : separator ∉ first') (same : first ++ separator :: rest = first' ++ separator :: rest') :
    first = first' ∧ rest = rest' := by
  induction first generalizing first' with
  | nil =>
    cases first' with
    | nil =>
      cases same
      exact ⟨rfl, rfl⟩
    | cons a first' =>
      cases same
      exact absurd List.mem_cons_self free'
  | cons a first ih =>
    cases first' with
    | nil =>
      cases same
      exact absurd List.mem_cons_self free
    | cons b first' =>
      rw [List.cons_append, List.cons_append, List.cons.injEq] at same
      obtain ⟨rfl, tails⟩ := same
      have later := ih (fun member => free (List.mem_cons_of_mem a member))
        (fun member => free' (List.mem_cons_of_mem a member)) tails
      exact ⟨by rw [later.1], later.2⟩

theorem comma_notMem_repr (n : Nat) : ',' ∉ n.repr.toList := by
  intro member
  have digit := Nat.isDigit_of_mem_toDigits (b := 10) (n := n) (by decide) (by decide)
    (by simpa [Nat.repr] using member)
  simp at digit

theorem Rgb.joined_injective {c d : Rgb} (same : c.joined = d.joined) : c = d := by
  have lists := congrArg String.toList same
  simp only [Rgb.joined, String.toList_append, List.append_assoc] at lists
  obtain ⟨r, others⟩ := parts_of_append (comma_notMem_repr c.r) (comma_notMem_repr d.r) lists
  obtain ⟨g, b⟩ := parts_of_append (comma_notMem_repr c.g) (comma_notMem_repr d.g) others
  have channels : c.r = d.r ∧ c.g = d.g ∧ c.b = d.b :=
    ⟨Nat.repr_injective (String.toList_injective r), Nat.repr_injective (String.toList_injective g),
      Nat.repr_injective (String.toList_injective b)⟩
  cases c
  cases d
  simpa using channels

theorem Rgb.joined_eq_iff {c d : Rgb} {text : String} (joined : d.joined = text) : c.joined = text ↔ c = d := by
  constructor
  · intro same
    exact joined_injective (same.trans joined.symm)
  · intro same
    rw [same, joined]

def codeNumber (color : Rgb) : Int :=
  if color = ⟨181, 121, 139⟩ then 1
  else if color = ⟨255, 151, 105⟩ then 2
  else if color = ⟨117, 196, 191⟩ then 3
  else if color = ⟨161, 204, 97⟩ then 4
  else if color = ⟨110, 79, 150⟩ then 5
  else 0

theorem colorToCode_eq (color : Rgb) : colorToCode color = (codeNumber color).toNat.repr := by
  have first : (⟨181, 121, 139⟩ : Rgb).joined = "181,121,139" := by decide
  have second : (⟨255, 151, 105⟩ : Rgb).joined = "255,151,105" := by decide
  have third : (⟨117, 196, 191⟩ : Rgb).joined = "117,196,191" := by decide
  have fourth : (⟨161, 204, 97⟩ : Rgb).joined = "161,204,97" := by decide
  have fifth : (⟨110, 79, 150⟩ : Rgb).joined = "110,79,150" := by decide
  unfold colorToCode codeNumber
  simp only [Rgb.joined_eq_iff first, Rgb.joined_eq_iff second, Rgb.joined_eq_iff third, Rgb.joined_eq_iff fourth,
    Rgb.joined_eq_iff fifth]
  split_ifs <;> rfl

theorem codeNumber_bounds (color : Rgb) : 0 ≤ codeNumber color ∧ codeNumber color ≤ 5 := by
  unfold codeNumber
  split_ifs <;> decide

theorem parseInt_colorToCode (color : Rgb) : Swift.parseInt (colorToCode color) = some (codeNumber color) := by
  rw [colorToCode_eq]
  unfold codeNumber
  split_ifs <;> decide

theorem slider_of_code {color : Rgb} (known : codeNumber color ≠ 0) :
    Color.hexToRgb (sliderColour (codeNumber color)) = some color := by
  unfold codeNumber at known ⊢
  split_ifs at known ⊢ with first second third fourth fifth
  · rw [first]
    decide
  · rw [second]
    decide
  · rw [third]
    decide
  · rw [fourth]
    decide
  · rw [fifth]
    decide
  · exact absurd rfl known

theorem code_of_slider {position : Int} (low : 1 ≤ position) (high : position ≤ 5) :
    (Color.hexToRgb (sliderColour position)).map codeNumber = some position := by
  have listed : position ∈ [(1 : Int), 2, 3, 4, 5] := by
    simp only [List.mem_cons, List.not_mem_nil, or_false]
    omega
  clear low high
  revert position
  decide

theorem sliderColour_eq_iff {position : Int} (low : 1 ≤ position) (high : position ≤ 5) (color : Rgb) :
    Color.hexToRgb (sliderColour position) = some color ↔ codeNumber color = position := by
  constructor
  · intro same
    have code := code_of_slider low high
    rw [same] at code
    exact Option.some.inj code
  · intro code
    rw [← code]
    apply slider_of_code
    omega

end Codes

end ArRobotCode.Scratch
