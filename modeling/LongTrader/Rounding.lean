import LongTrader.Numeral
import Mathlib.Tactic.FieldSimp
import Mathlib.Tactic.Linarith
import Mathlib.Tactic.Ring

/-! The parser of `rust_decimal` on the texts of the contract: it keeps as many
fractional digits as 96 bits hold and rounds on the first one it drops. -/

namespace LongTrader

/-- What is left of a number when fractional digits are dropped: the coefficient, its
scale, and the first dropped digit. -/
structure Shortened where
  coefficient : Nat
  scale : Nat
  next : Nat
  deriving DecidableEq, Repr

/-- Drop fractional digits until the coefficient fits 96 bits. -/
def shorten (next coefficient : Nat) : Nat → Shortened
  | 0 => ⟨coefficient, 0, next⟩
  | scale + 1 =>
    if coefficient < 2 ^ 96 then ⟨coefficient, scale + 1, next⟩
    else shorten (coefficient % 10) (coefficient / 10) scale

/-- Round to the digits that fit, half up; an overflow costs one more digit. -/
def roundToFit (coefficient scale : Nat) : Option (Nat × Nat) :=
  let kept := shorten 0 coefficient scale
  if 2 ^ 96 ≤ kept.coefficient then none
  else if kept.next < 5 then some (kept.coefficient, kept.scale)
  else if kept.coefficient + 1 < 2 ^ 96 then some (kept.coefficient + 1, kept.scale)
  else match kept.scale with
    | 0 => none
    | scale + 1 => some ((kept.coefficient + 5) / 10, scale)

/-- `Decimal::from_str` on base-10 digits. -/
def parseRounded (text : String) : Except String Decimal :=
  let halves := pieces (stripMinus text.toList)
  let fraction := halves.2.getD []
  match digitsValue 0 (halves.1 ++ fraction) with
  | none => .error "Invalid decimal: unknown character"
  | some digits => match roundToFit digits fraction.length with
    | none => .error "Invalid decimal: overflow from too many digits"
    | some (coefficient, scale) =>
      .ok ⟨if text.toList.head? = some '-' then -(coefficient : Int) else coefficient, scale⟩

/-- `rust_decimal` with its rounding parser. -/
def rustDecimal : DecimalOps := { decimal96 with parse := parseRounded }

/-- The shortened number lies between its digits and the next one. -/
structure Shortened.Keeps (kept : Shortened) (number : ℚ) (scale : Nat) (rest : ℚ) : Prop where
  nonnegative : 0 ≤ rest
  small : rest < 1
  digit : kept.next ≤ 9
  shorter : kept.scale ≤ scale
  number_eq : number = (kept.coefficient + (kept.next + rest) / 10) / 10 ^ kept.scale
  integral : 2 ^ 96 ≤ kept.coefficient → kept.scale = 0

theorem shorten_keeps {next coefficient scale : Nat} {rest : ℚ} (nonnegative : 0 ≤ rest)
    (small : rest < 1) (digit : next ≤ 9) :
    ∃ left, (shorten next coefficient scale).Keeps
        ((coefficient + (next + rest) / 10) / 10 ^ scale) scale left ∧
      ((shorten next coefficient scale = ⟨coefficient, scale, next⟩ ∧ left = rest) ∨
        2 ^ 96 ≤ (shorten next coefficient scale).coefficient * 10 +
          (shorten next coefficient scale).next) := by
  induction scale generalizing next coefficient rest with
  | zero => exact ⟨rest, ⟨nonnegative, small, digit, le_rfl, rfl, fun _ => rfl⟩, .inl ⟨rfl, rfl⟩⟩
  | succ scale ih =>
    rw [shorten]
    split
    · rename_i fits
      refine ⟨rest, ⟨nonnegative, small, digit, le_rfl, rfl, ?_⟩, .inl ⟨rfl, rfl⟩⟩
      intro large
      exact absurd fits (Nat.not_lt.mpr large)
    · rename_i large
      have lower : 0 ≤ ((next : ℚ) + rest) / 10 := by positivity
      have upper : ((next : ℚ) + rest) / 10 < 1 := by
        have bound : (next : ℚ) ≤ 9 := by exact_mod_cast digit
        linarith
      have last : coefficient % 10 ≤ 9 := by omega
      obtain ⟨left, keeps, dropped⟩ := @ih (coefficient % 10) (coefficient / 10) _ lower upper last
      have whole : (coefficient : ℚ) = (coefficient / 10 : Nat) * 10 + (coefficient % 10 : Nat) := by
        exact_mod_cast (Nat.div_add_mod' coefficient 10).symm
      have same : ((coefficient : ℚ) + (next + rest) / 10) / 10 ^ (scale + 1) =
          ((coefficient / 10 : Nat) + ((coefficient % 10 : Nat) + (next + rest) / 10) / 10) /
            10 ^ scale := by
        rw [whole]
        field_simp
        ring
      refine ⟨left, ⟨keeps.nonnegative, keeps.small, keeps.digit, by have := keeps.shorter; omega,
        same.trans keeps.number_eq, keeps.integral⟩, .inr ?_⟩
      rcases dropped with ⟨shape, _⟩ | more
      · rw [shape]
        simp only
        omega
      · exact more

/-- The number that is rounded, by the digits that are kept of it. -/
theorem shorten_number (coefficient scale : Nat) :
    ∃ left, (shorten 0 coefficient scale).Keeps ((coefficient : ℚ) / 10 ^ scale) scale left ∧
      ((shorten 0 coefficient scale).next = 0 ∧ left = 0 ∨
        2 ^ 96 ≤ (shorten 0 coefficient scale).coefficient * 10 +
          (shorten 0 coefficient scale).next) := by
  obtain ⟨left, keeps, dropped⟩ := @shorten_keeps 0 coefficient scale 0 le_rfl one_pos (by decide)
  refine ⟨left, by simpa using keeps, ?_⟩
  rcases dropped with ⟨shape, rfl⟩ | more
  · exact .inl ⟨by rw [shape], rfl⟩
  · exact .inr more

section Round

variable {coefficient scale : Nat}

theorem roundToFit_fits {kept : Nat × Nat} (rounded : roundToFit coefficient scale = some kept) :
    kept.1 < 2 ^ 96 ∧ kept.2 ≤ scale := by
  obtain ⟨left, keeps, _⟩ := shorten_number coefficient scale
  have shorter := keeps.shorter
  unfold roundToFit at rounded
  dsimp only at rounded
  split at rounded
  · cases rounded
  rename_i fits
  split at rounded
  · obtain rfl := Option.some.inj rounded
    exact ⟨Nat.lt_of_not_le fits, shorter⟩
  split at rounded
  · rename_i room
    obtain rfl := Option.some.inj rounded
    exact ⟨room, shorter⟩
  split at rounded
  · cases rounded
  · rename_i digits shape
    obtain rfl := Option.some.inj rounded
    simp only
    omega

namespace Shortened.Keeps

variable {kept : Shortened} {number left : ℚ} (keeps : kept.Keeps number scale left)

include keeps

theorem lower : ((kept.coefficient : ℚ) + kept.next / 10) / 10 ^ kept.scale ≤ number := by
  rw [keeps.number_eq]
  have nonnegative := keeps.nonnegative
  gcongr
  linarith

theorem upper : number < ((kept.coefficient : ℚ) + (kept.next + 1) / 10) / 10 ^ kept.scale := by
  rw [keeps.number_eq]
  have small := keeps.small
  gcongr

/-- What is kept bounds the number from above, whatever the scale. -/
theorem below {bound : ℚ} (above : (kept.coefficient : ℚ) + (kept.next + 1) / 10 ≤ bound) :
    number < bound := by
  have nonnegative : (0 : ℚ) ≤ kept.coefficient + (kept.next + 1) / 10 := by positivity
  calc number < ((kept.coefficient : ℚ) + (kept.next + 1) / 10) / 10 ^ kept.scale := keeps.upper
    _ ≤ kept.coefficient + (kept.next + 1) / 10 :=
      div_le_self nonnegative (one_le_pow₀ (by norm_num))
    _ ≤ bound := above

/-- Without a point nothing is left but the next digit. -/
theorem above (integral : kept.scale = 0) : (kept.coefficient : ℚ) + kept.next / 10 ≤ number := by
  have least := keeps.lower
  rwa [integral, pow_zero, div_one] at least

/-- Nothing is left beyond the digits of a number with at most that many. -/
theorem nothing_left {units digits : Nat} (held : number = units / 10 ^ digits)
    (kept_all : digits ≤ kept.scale) : kept.next = 0 ∧ left = 0 := by
  have positive : (0 : ℚ) < 10 ^ kept.scale := by positivity
  have whole : ((units * 10 ^ (kept.scale - digits) : Nat) : ℚ) =
      kept.coefficient + (kept.next + left) / 10 := by
    have split : (10 : ℚ) ^ kept.scale = 10 ^ (kept.scale - digits) * 10 ^ digits := by
      rw [← pow_add, Nat.sub_add_cancel kept_all]
    have same := keeps.number_eq
    rw [held, eq_div_iff positive.ne', split] at same
    rw [← same]
    push_cast
    field_simp
  have nonnegative := keeps.nonnegative
  have small := keeps.small
  have ninth : (kept.next : ℚ) ≤ 9 := by exact_mod_cast keeps.digit
  have digit : (0 : ℚ) ≤ kept.next := Nat.cast_nonneg _
  have least : kept.coefficient ≤ units * 10 ^ (kept.scale - digits) := by
    have bound : (kept.coefficient : ℚ) ≤ ((units * 10 ^ (kept.scale - digits) : Nat) : ℚ) := by
      rw [whole]
      linarith
    exact_mod_cast bound
  have most : units * 10 ^ (kept.scale - digits) < kept.coefficient + 1 := by
    have bound : ((units * 10 ^ (kept.scale - digits) : Nat) : ℚ) <
        ((kept.coefficient + 1 : Nat) : ℚ) := by
      rw [whole]
      push_cast
      linarith
    exact_mod_cast bound
  have equal : units * 10 ^ (kept.scale - digits) = kept.coefficient := by omega
  rw [equal] at whole
  have none : (kept.next : ℚ) = 0 := by linarith
  exact ⟨by exact_mod_cast none, by linarith⟩

/-- A number that needs more digits than are kept does not fit 96 bits. -/
theorem needs_more {units digits : Nat} (held : number = units / 10 ^ digits)
    (wide : 2 ^ 96 ≤ kept.coefficient * 10 + kept.next) (dropped : kept.scale < digits) :
    2 ^ 96 ≤ units := by
  have positive : (0 : ℚ) < 10 ^ kept.scale := by positivity
  have nonnegative := keeps.nonnegative
  have same := keeps.number_eq
  rw [held, div_eq_div_iff (by positivity) positive.ne'] at same
  have split : (10 : ℚ) ^ digits = 10 ^ (digits - kept.scale - 1) * 10 * 10 ^ kept.scale := by
    rw [← pow_succ, ← pow_add]
    congr 1
    omega
  have scaled : (units : ℚ) =
      10 ^ (digits - kept.scale - 1) * (kept.coefficient * 10 + kept.next + left) := by
    rw [split] at same
    have cancelled := mul_right_cancel₀ positive.ne'
      (same.trans (show _ = 10 ^ (digits - kept.scale - 1) *
        (kept.coefficient * 10 + kept.next + left) * 10 ^ kept.scale by ring))
    exact cancelled
  have factor : (1 : ℚ) ≤ 10 ^ (digits - kept.scale - 1) := one_le_pow₀ (by norm_num)
  have whole : ((2 ^ 96 : Nat) : ℚ) ≤ kept.coefficient * 10 + kept.next := by exact_mod_cast wide
  have bound : ((2 ^ 96 : Nat) : ℚ) ≤ units := by
    rw [scaled]
    calc ((2 ^ 96 : Nat) : ℚ) ≤ kept.coefficient * 10 + kept.next + left := by linarith
      _ ≤ 10 ^ (digits - kept.scale - 1) * (kept.coefficient * 10 + kept.next + left) :=
        le_mul_of_one_le_left (by positivity) factor
  exact_mod_cast bound

end Shortened.Keeps

theorem roundToFit_none_iff :
    roundToFit coefficient scale = none ↔ (2 : ℚ) ^ 96 - 1 / 2 ≤ coefficient / 10 ^ scale := by
  obtain ⟨left, keeps, _⟩ := shorten_number coefficient scale
  unfold roundToFit
  dsimp only
  generalize shorten 0 coefficient scale = kept at keeps
  generalize (coefficient : ℚ) / 10 ^ scale = number at keeps
  have digit : (0 : ℚ) ≤ kept.next := Nat.cast_nonneg _
  have ninth : (kept.next : ℚ) ≤ 9 := by exact_mod_cast keeps.digit
  rcases Nat.lt_or_ge kept.coefficient (2 ^ 96) with fits | large
  · have whole : (kept.coefficient : ℚ) + 1 ≤ 2 ^ 96 := by exact_mod_cast fits
    rw [if_neg (Nat.not_le.mpr fits)]
    rcases Nat.lt_or_ge kept.next 5 with low | high
    · have down : (kept.next : ℚ) + 1 ≤ 5 := by exact_mod_cast low
      rw [if_pos low]
      simp only [reduceCtorEq, false_iff, not_le]
      exact keeps.below (by linarith)
    · have up : (5 : ℚ) ≤ kept.next := by exact_mod_cast high
      rw [if_neg (Nat.not_lt.mpr high)]
      rcases Nat.lt_or_ge (kept.coefficient + 1) (2 ^ 96) with room | full
      · have less : (kept.coefficient : ℚ) + 1 + 1 ≤ 2 ^ 96 := by exact_mod_cast room
        rw [if_pos room]
        simp only [reduceCtorEq, false_iff, not_le]
        exact keeps.below (by linarith)
      · have top : (2 : ℚ) ^ 96 ≤ kept.coefficient + 1 := by exact_mod_cast full
        rw [if_neg (Nat.not_lt.mpr full)]
        cases integral : kept.scale with
        | zero =>
          have least := keeps.above integral
          simp only [true_iff]
          linarith
        | succ digits =>
          have most := keeps.upper
          rw [integral, pow_succ, mul_comm, ← div_div] at most
          have scaled : ((kept.coefficient : ℚ) + (kept.next + 1) / 10) / 10 / 10 ^ digits ≤
              (kept.coefficient + (kept.next + 1) / 10) / 10 :=
            div_le_self (by positivity) (one_le_pow₀ (by norm_num))
          simp only [reduceCtorEq, false_iff, not_le]
          linarith
  · have least := keeps.above (keeps.integral large)
    have wide : (2 : ℚ) ^ 96 ≤ kept.coefficient := by exact_mod_cast large
    rw [if_pos large]
    simp only [true_iff]
    linarith

/-- A number that fits a decimal keeps all its digits. -/
theorem roundToFit_exact {units digits : Nat} (small : units < 2 ^ 96)
    (held : (coefficient : ℚ) / 10 ^ scale = units / 10 ^ digits) :
    ∃ kept, roundToFit coefficient scale = some kept ∧
      (kept.1 : ℚ) / 10 ^ kept.2 = coefficient / 10 ^ scale := by
  obtain ⟨left, keeps, dropped⟩ := shorten_number coefficient scale
  have none_left : (shorten 0 coefficient scale).next = 0 ∧ left = 0 := by
    rcases dropped with exact | wide
    · exact exact
    · rcases Nat.lt_or_ge (shorten 0 coefficient scale).scale digits with short | enough
      · exact absurd (keeps.needs_more held wide short) (Nat.not_le.mpr small)
      · exact keeps.nothing_left held enough
  have fits : ¬ 2 ^ 96 ≤ (shorten 0 coefficient scale).coefficient := by
    intro large
    have least := keeps.above (keeps.integral large)
    have most : (units : ℚ) / 10 ^ digits ≤ units :=
      div_le_self (Nat.cast_nonneg _) (one_le_pow₀ (by norm_num))
    have wide : ((2 ^ 96 : Nat) : ℚ) ≤ (shorten 0 coefficient scale).coefficient := by
      exact_mod_cast large
    have narrow : (units : ℚ) < ((2 ^ 96 : Nat) : ℚ) := by exact_mod_cast small
    rw [none_left.1] at least
    rw [← held] at most
    push_cast at *
    linarith
  refine ⟨((shorten 0 coefficient scale).coefficient, (shorten 0 coefficient scale).scale), ?_, ?_⟩
  · unfold roundToFit
    dsimp only
    rw [if_neg fits, if_pos (by rw [none_left.1]; decide)]
  · rw [keeps.number_eq, none_left.1, none_left.2]
    simp

end Round

theorem digitsValue_isSome {chars : List Char} (digits : ∀ c ∈ chars, c.isDigit = true)
    (start : Nat) : (digitsValue start chars).isSome = true := by
  induction chars generalizing start with
  | nil => rfl
  | cons c rest ih =>
    rw [digitsValue, if_pos (digits c (List.mem_cons_self ..))]
    exact ih (fun other member => digits other (List.mem_cons_of_mem _ member)) _

namespace Numeral

variable (numeral : Numeral)

theorem digits_valid : ∀ c ∈ numeral.digits, c.isDigit = true := by
  intro c member
  rcases List.mem_append.mp member with whole | fraction
  · exact (isDigits_iff.mp numeral.wholeDigits).2 c whole
  · cases present : numeral.fraction with
    | none => simp [present] at fraction
    | some digits =>
      rw [present] at fraction
      exact (isDigits_iff.mp (numeral.fractionDigits digits present).1).2 c fraction

theorem digitsValue_digits : digitsValue 0 numeral.digits = some numeral.coefficient := by
  obtain ⟨value, found⟩ := Option.isSome_iff_exists.mp
    (digitsValue_isSome numeral.digits_valid 0)
  rw [coefficient, found]
  rfl

theorem head_text : numeral.text.head? = some '-' ↔ numeral.negative = true := by
  obtain ⟨c, rest, shape, digit⟩ := numeral.body_head
  unfold text
  cases numeral.negative with
  | true => simp
  | false =>
    simp only [Bool.false_eq_true, if_false, List.nil_append, shape, List.head?_cons,
      Option.some.injEq, iff_false]
    rintro rfl
    cases digit

theorem scale_le : numeral.scale ≤ Decimal.MAX_SCALE := by
  unfold scale
  cases present : numeral.fraction with
  | none => exact Nat.zero_le _
  | some digits => exact (numeral.fractionDigits digits present).2

theorem abs_number : |numeral.number| = numeral.coefficient / 10 ^ numeral.scale := by
  have positive : (0 : ℚ) < 10 ^ numeral.scale := by positivity
  unfold number
  rw [abs_div, abs_of_pos positive]
  split
  · rw [abs_neg, Nat.abs_cast]
  · rw [Nat.abs_cast]

end Numeral

/-- A coefficient and a scale with a sign. -/
def Decimal.signed (negative : Bool) (kept : Nat × Nat) : Decimal :=
  ⟨if negative then -(kept.1 : Int) else kept.1, kept.2⟩

theorem Decimal.value_signed (negative : Bool) (kept : Nat × Nat) :
    (Decimal.signed negative kept).value =
      (if negative then -((kept.1 : ℚ) / 10 ^ kept.2) else kept.1 / 10 ^ kept.2) := by
  unfold Decimal.signed Decimal.value
  cases negative
  · simp
  · simp [neg_div]

theorem parseRounded_numeral {numeral : Numeral} {text : String}
    (same : numeral.text = text.toList) :
    parseRounded text = match roundToFit numeral.coefficient numeral.scale with
      | none => .error "Invalid decimal: overflow from too many digits"
      | some kept => .ok (.signed numeral.negative kept) := by
  unfold parseRounded
  rw [← same, numeral.stripMinus_text, numeral.pieces_body]
  have digits : numeral.whole ++ numeral.fraction.getD [] = numeral.digits := rfl
  simp only [digits, numeral.digitsValue_digits, numeral.head_text]
  rw [← Numeral.scale]
  cases roundToFit numeral.coefficient numeral.scale with
  | none => rfl
  | some kept => rfl

/-- The rounding parser does what `rust_decimal` documents. -/
theorem rustDecimal_documented : rustDecimal.Documented := by
  have outOfRange : ∀ numeral : Numeral, OutOfRange numeral.number ↔
      roundToFit numeral.coefficient numeral.scale = none := by
    intro numeral
    rw [roundToFit_none_iff, OutOfRange, numeral.abs_number]
  have parses : ∀ (numeral : Numeral) (text : String), numeral.text = text.toList →
      rustDecimal.parse text = match roundToFit numeral.coefficient numeral.scale with
        | none => .error "Invalid decimal: overflow from too many digits"
        | some kept => .ok (.signed numeral.negative kept) :=
    fun numeral text same => parseRounded_numeral same
  refine ⟨?_, ?_, ?_, ?_⟩
  · intro numeral text decimal same parsed
    rw [parses numeral text same] at parsed
    split at parsed
    · cases parsed
    · rename_i kept rounded
      obtain rfl := Except.ok.inj parsed
      obtain ⟨small, short⟩ := roundToFit_fits rounded
      refine ⟨.signed numeral.negative kept, ?_, short.trans numeral.scale_le, rfl⟩
      unfold Decimal.signed
      split
      · simpa using small
      · simpa using small
  · intro numeral text same held
    obtain ⟨decimal, small, _, value⟩ := held
    have magnitude : (numeral.coefficient : ℚ) / 10 ^ numeral.scale =
        decimal.coefficient.natAbs / 10 ^ decimal.scale := by
      have positive : (0 : ℚ) < 10 ^ decimal.scale := by positivity
      rw [← numeral.abs_number, ← value, Decimal.value, abs_div, abs_of_pos positive,
        Nat.cast_natAbs, Int.cast_abs]
    obtain ⟨kept, rounded, exact⟩ := roundToFit_exact small magnitude
    refine ⟨.signed numeral.negative kept, by rw [parses numeral text same, rounded], ?_⟩
    rw [Decimal.value_signed, exact, Numeral.number]
    split
    · rw [neg_div]
    · rfl
  · intro numeral text same inRange
    rw [outOfRange, ← ne_eq, Option.ne_none_iff_exists'] at inRange
    obtain ⟨kept, rounded⟩ := inRange
    exact ⟨.signed numeral.negative kept, by rw [parses numeral text same, rounded]⟩
  · intro numeral text same beyond
    exact ⟨_, by rw [parses numeral text same, (outOfRange numeral).mp beyond]⟩

/-- A fraction that needs two bits too many loses its last digit, unreported. -/
theorem common_to_decimal_rounds :
    rustDecimal.Documented ∧
      commonToDecimal rustDecimal "1234567890123456789012345678.99" =
        .ok ⟨12345678901234567890123456790, 1⟩ ∧
      ¬ ∃ numeral : Numeral, numeral.text = "1234567890123456789012345678.99".toList ∧
        Decimal.value ⟨12345678901234567890123456790, 1⟩ = numeral.number := by
  refine ⟨rustDecimal_documented, by decide +kernel, ?_⟩
  rintro ⟨numeral, text, value⟩
  let payload : Numeral := ⟨false, "1234567890123456789012345678".toList, some "99".toList,
    by decide, by simp; decide⟩
  have number : payload.number = 123456789012345678901234567899 / 10 ^ 2 := by
    have units : payload.coefficient = 123456789012345678901234567899 := by decide +kernel
    have digits : payload.scale = 2 := by decide
    have sign : payload.negative = false := rfl
    simp [Numeral.number, sign, units, digits]
  obtain rfl : numeral = payload := Numeral.text_injective (text.trans rfl)
  rw [number] at value
  norm_num [Decimal.value] at value

theorem common_to_decimal_exact_iff_short :
    rustDecimal.Documented ∧ ∀ decimal, commonToDecimal rustDecimal "-1.50" = .ok decimal →
      ∃ numeral : Numeral, numeral.text = "-1.50".toList ∧ decimal.value = numeral.number := by
  refine ⟨rustDecimal_documented,
    (common_to_decimal_exact_iff rustDecimal_documented "-1.50").mpr ?_⟩
  intro numeral text
  let payload : Numeral := ⟨true, "1".toList, some "50".toList, by decide, by simp; decide⟩
  obtain rfl : numeral = payload := Numeral.text_injective (text.trans rfl)
  have units : payload.coefficient = 150 := by decide +kernel
  have digits : payload.scale = 2 := by decide
  refine .inl ⟨⟨-150, 2⟩, by decide, by decide, ?_⟩
  norm_num [Numeral.number, Decimal.value, payload, units, digits]

end LongTrader
