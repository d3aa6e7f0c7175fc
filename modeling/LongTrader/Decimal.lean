import LongTrader.Contract
import Mathlib.Algebra.Order.Field.Rat
import Mathlib.Data.Rat.Defs
import Mathlib.Tactic.Positivity

/-! Contract decimals: the base-10 grammar of the wire and the arithmetic that the
worker does on decoded values. -/

namespace LongTrader

/-- `rust_decimal::Decimal`: `coefficient / 10 ^ scale`. -/
structure Decimal where
  coefficient : Int
  scale : Nat
  deriving DecidableEq, Repr

namespace Decimal

/-- `Decimal::MAX_SCALE`. -/
def MAX_SCALE : Nat := 28

def zero : Decimal := ⟨0, 0⟩

/-- The number that a decimal denotes. -/
def value (decimal : Decimal) : ℚ := decimal.coefficient / 10 ^ decimal.scale

def neg (decimal : Decimal) : Decimal := { decimal with coefficient := -decimal.coefficient }

def abs (decimal : Decimal) : Decimal := { decimal with coefficient := |decimal.coefficient| }

/-- Comparison, whatever the scales. -/
def lt (first second : Decimal) : Bool :=
  first.coefficient * 10 ^ second.scale < second.coefficient * 10 ^ first.scale

theorem lt_iff (first second : Decimal) : first.lt second = true ↔ first.value < second.value := by
  have left : (0 : ℚ) < 10 ^ first.scale := by positivity
  have right : (0 : ℚ) < 10 ^ second.scale := by positivity
  rw [lt, decide_eq_true_eq, value, value, div_lt_div_iff₀ left right]
  norm_cast

@[simp] theorem value_zero : zero.value = 0 := by simp [zero, value]

@[simp] theorem value_neg (decimal : Decimal) : decimal.neg.value = -decimal.value := by
  simp [neg, value, neg_div]

end Decimal

/-- The operations of `rust_decimal` that the worker calls. `none` is the panic of an
overflowing operator. -/
structure DecimalOps where
  parse : String → Except String Decimal
  render : Decimal → String
  add : Decimal → Decimal → Option Decimal
  mul : Decimal → Decimal → Option Decimal

/-- The decimal if its coefficient fits 96 bits and its scale 28 digits. -/
def Decimal.fit (coefficient : Int) (scale : Nat) : Option Decimal :=
  if coefficient.natAbs < 2 ^ 96 ∧ scale ≤ Decimal.MAX_SCALE then some ⟨coefficient, scale⟩ else none

/-- `char::is_whitespace`, the Unicode property White_Space. -/
def isWhitespace (c : Char) : Bool :=
  let n := c.toNat
  (0x9 ≤ n && n ≤ 0xD) || n = 0x20 || n = 0x85 || n = 0xA0 || n = 0x1680 ||
    (0x2000 ≤ n && n ≤ 0x200A) || n = 0x2028 || n = 0x2029 || n = 0x202F || n = 0x205F || n = 0x3000

/-- Whether every character is an ASCII digit, and there is at least one. -/
def isDigits (text : List Char) : Bool := !text.isEmpty && text.all Char.isDigit

/-- `str::split_once('.')`. -/
def splitPoint : List Char → Option (List Char × List Char)
  | [] => none
  | c :: rest =>
    if c = '.' then some ([], rest)
    else (splitPoint rest).map fun halves => (c :: halves.1, halves.2)

/-- Which clause of the contract's documented grammar the text breaks, if any. -/
def grammarViolation (text : List Char) : Option String :=
  let body := match text with
    | '-' :: rest => rest
    | chars => chars
  let halves := match splitPoint body with
    | some (whole, fraction) => (whole, some fraction)
    | none => (body, none)
  if text.contains '_' then some "digit separators are not accepted"
  else if text.contains 'e' || text.contains 'E' then some "exponents are not accepted"
  else if text.head? = some '+' then some "a leading `+` is not accepted"
  else if halves.1.isEmpty then some "expected at least one digit before the decimal point"
  else if !isDigits halves.1 then some "expected only digits before the decimal point"
  else match halves.2 with
    | none => none
    | some fraction =>
      if fraction.isEmpty then some "expected at least one digit after the decimal point"
      else if !isDigits fraction then some "expected only digits after the decimal point"
      else if Decimal.MAX_SCALE < fraction.length then
        some "more fractional digits than a decimal can hold"
      else none

/-- `ext::common_to_decimal`. -/
def commonToDecimal (ops : DecimalOps) (payload : String) : Except DecimalConvertError Decimal :=
  if payload.toList.all isWhitespace then .error .empty
  else match grammarViolation payload.toList with
    | some reason => .error (.notBase10 payload reason)
    | none => match ops.parse payload with
      | .error source => .error (.outOfRange payload source)
      | .ok decimal => .ok decimal

/-- `Decimal::to_string`. -/
def Decimal.text (decimal : Decimal) : String :=
  let digits := (toString decimal.coefficient.natAbs).toList
  let padded := List.replicate (decimal.scale + 1 - digits.length) '0' ++ digits
  let whole := padded.take (padded.length - decimal.scale)
  let fraction := padded.drop (padded.length - decimal.scale)
  String.ofList ((if decimal.coefficient < 0 then ['-'] else []) ++ whole ++
    if decimal.scale = 0 then [] else '.' :: fraction)

/-- Operations that are exact where they answer at all: `rust_decimal` away from the
results that it has to round. -/
def decimal96 : DecimalOps where
  parse text :=
    let (negative, body) := match text.toList with
      | '-' :: rest => (true, rest)
      | chars => (false, chars)
    let (whole, fraction) := (splitPoint body).getD (body, [])
    match digitsValue 0 (whole ++ fraction) with
    | none => .error "Invalid decimal: unknown character"
    | some digits =>
      match Decimal.fit (if negative then -(digits : Int) else digits) fraction.length with
      | none => .error "Invalid decimal: overflow from too many digits"
      | some decimal => .ok decimal
  render := Decimal.text
  add first second :=
    let scale := max first.scale second.scale
    Decimal.fit (first.coefficient * 10 ^ (scale - first.scale) +
      second.coefficient * 10 ^ (scale - second.scale)) scale
  mul first second :=
    Decimal.fit (first.coefficient * second.coefficient) (first.scale + second.scale)

example : decimal96.add ⟨15, 1⟩ ⟨25, 2⟩ = some ⟨175, 2⟩ := by decide

end LongTrader
