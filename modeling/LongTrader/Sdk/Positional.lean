import LongTrader.Rounding
import Mathlib.Data.Nat.Size

/-! How the Python and TypeScript SDKs write a decimal without an exponent. Both place
one point among the digits; they differ in the signs they know. -/

namespace LongTrader.Sdk

/-- The natural number that digits spell. -/
def spelled (digits : List Char) : Nat := (digitsValue 0 digits).getD 0

inductive Sign where
  | none
  | minus
  | plus
  deriving DecidableEq, Repr

namespace Sign

def text : Sign → List Char
  | none => []
  | minus => ['-']
  | plus => ['+']

def factor : Sign → Int
  | minus => -1
  | _ => 1

end Sign

/-- A literal without exponent: a sign, digits, and a point only between digits. -/
structure Positional where
  sign : Sign
  whole : List Char
  fraction : Option (List Char)
  wholeDigits : isDigits whole = true
  fractionDigits : ∀ digits ∈ fraction, isDigits digits = true

/-- Digits, and a point before the fraction if there is one. -/
def joined (halves : List Char × Option (List Char)) : List Char :=
  halves.1 ++ match halves.2 with
    | none => []
    | some fraction => '.' :: fraction

namespace Positional

def text (literal : Positional) : List Char :=
  literal.sign.text ++ joined (literal.whole, literal.fraction)

def digits (literal : Positional) : List Char := literal.whole ++ literal.fraction.getD []

def number (literal : Positional) : ℚ :=
  literal.sign.factor * spelled literal.digits / 10 ^ (literal.fraction.getD []).length

end Positional

/-- The power of ten of a literal. -/
structure Exponent where
  upper : Bool
  sign : Sign
  digits : List Char
  valid : isDigits digits = true

namespace Exponent

def text (exponent : Exponent) : List Char :=
  (if exponent.upper then 'E' else 'e') :: (exponent.sign.text ++ exponent.digits)

def value (exponent : Exponent) : Int := exponent.sign.factor * spelled exponent.digits

end Exponent

/-- A literal with an optional exponent. -/
structure Literal extends Positional where
  exponent : Option Exponent

namespace Literal

def text (literal : Literal) : List Char :=
  literal.toPositional.text ++ match literal.exponent with
    | none => []
    | some exponent => exponent.text

def number (literal : Literal) : ℚ :=
  literal.toPositional.number * match literal.exponent with
    | none => 1
    | some exponent => 10 ^ exponent.value

end Literal

/-- `"0" * count` and `"0".repeat(count)`. -/
def zeros (count : Int) : List Char := List.replicate count.toNat '0'

namespace Python

/-- `decimal.Decimal.as_tuple` of a finite decimal. -/
structure DecimalTuple where
  sign : Bool
  digits : List (Fin 10)
  exponent : Int
  nonempty : digits ≠ []

namespace DecimalTuple

def coefficient (dec : DecimalTuple) : Nat := dec.digits.foldl (fun acc digit => acc * 10 + digit.val) 0

def number (dec : DecimalTuple) : ℚ :=
  (if dec.sign then -1 else 1) * dec.coefficient * 10 ^ dec.exponent

end DecimalTuple

/-- `str` of a digit. -/
def str (digit : Fin 10) : Char := digit.val.digitChar

end Python

namespace TypeScript

/-- A nonempty string of digits. -/
def natural (text : List Char) : Option Nat := if isDigits text then digitsValue 0 text else none

/-- `Number` on a signed string of digits, before it is rounded to an f64. -/
def number : List Char → Option Int
  | '-' :: digits => (natural digits).map fun value => -(value : Int)
  | '+' :: digits => (natural digits).map fun value => (value : Int)
  | digits => (natural digits).map fun value => (value : Int)

/-- The length of the longest string that an engine makes, far below what an f64 counts to. -/
structure Engine where
  longest : Nat
  bounded : longest < 2 ^ 52

/-- A string; `none` is the `RangeError` of `repeat` and of a template that are too long. -/
def Engine.string (engine : Engine) (text : List Char) : Option (List Char) :=
  if text.length ≤ engine.longest then some text else none

end TypeScript

section Digits

variable {first second digits : List Char}

theorem zeros_valid (count : Int) : ∀ c ∈ zeros count, c.isDigit = true := by
  intro c member
  rw [List.eq_of_mem_replicate member]
  rfl

/-- The digits around a point that stands behind the first `point` of them. -/
def place (digits : List Char) (point : Int) : List Char × Option (List Char) :=
  if point ≤ 0 then (['0'], some (zeros (-point) ++ digits))
  else if point ≥ digits.length then (digits ++ zeros (point - digits.length), none)
  else (digits.take point.toNat, some (digits.drop point.toNat))

theorem place_valid (valid : isDigits digits = true) (point : Int) :
    isDigits (place digits point).1 = true ∧
      ∀ fraction ∈ (place digits point).2, isDigits fraction = true := by
  obtain ⟨nonempty, each⟩ := isDigits_iff.mp valid
  have positive := List.length_pos_iff.mpr nonempty
  simp only [isDigits_iff]
  unfold place
  split
  · refine ⟨⟨by simp, by simp⟩, ?_⟩
    rintro _ ⟨⟩
    refine ⟨by simp [nonempty], ?_⟩
    intro c member
    exact (List.mem_append.mp member).elim (zeros_valid _ c) (each c)
  split
  · refine ⟨⟨by simp [nonempty], ?_⟩, by simp⟩
    intro c member
    exact (List.mem_append.mp member).elim (each c) (zeros_valid _ c)
  · refine ⟨⟨?_, fun c member => each c (List.mem_of_mem_take member)⟩, ?_⟩
    · apply List.ne_nil_of_length_pos
      rw [List.length_take]
      omega
    · rintro _ ⟨⟩
      refine ⟨?_, fun c member => each c (List.mem_of_mem_drop member)⟩
      apply List.ne_nil_of_length_pos
      rw [List.length_drop]
      omega

end Digits

namespace Positional

variable (literal : Positional)

/-- The literal of digits around a placed point. -/
def placed (sign : Sign) {digits : List Char} (valid : isDigits digits = true) (point : Int) :
    Positional :=
  ⟨sign, (place digits point).1, (place digits point).2, (place_valid valid point).1,
    (place_valid valid point).2⟩

theorem digits_valid : isDigits literal.digits = true := by
  obtain ⟨nonempty, whole⟩ := isDigits_iff.mp literal.wholeDigits
  rw [isDigits_iff, digits]
  refine ⟨by simp [nonempty], ?_⟩
  intro c member
  rcases List.mem_append.mp member with left | right
  · exact whole c left
  · cases present : literal.fraction with
    | none => simp [present] at right
    | some fraction =>
      rw [present] at right
      exact (isDigits_iff.mp (literal.fractionDigits fraction present)).2 c right

end Positional

section Python

open Python

theorem Python.str_isDigit (digit : Fin 10) : (str digit).isDigit = true := by
  revert digit
  decide

theorem Python.digits_valid (dec : DecimalTuple) : isDigits (dec.digits.map str) = true := by
  rw [isDigits_iff]
  refine ⟨by simp [dec.nonempty], ?_⟩
  intro c member
  obtain ⟨digit, _, rfl⟩ := List.mem_map.mp member
  exact str_isDigit digit

end Python

/-- What `expandExponent` takes for the sign. -/
def Sign.known : Sign → List Char
  | minus => ['-']
  | _ => []

namespace TypeScript

section Rounding

variable {engine : Engine} {sign digits : List Char} {size : Nat} {value : Int}

end Rounding

variable {engine : Engine}

section Parts

variable (literal : Positional)

end Parts

end TypeScript

end LongTrader.Sdk
