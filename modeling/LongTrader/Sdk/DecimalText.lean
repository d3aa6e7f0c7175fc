import LongTrader.Rounding

/-! The decimal validators of the Go, Python and TypeScript SDKs beside the decoder of
the host. All of them enforce one grammar; the SDKs also bound the coefficient. -/

namespace LongTrader.Sdk

/-- `maxDecimalMantissa` and `DECIMAL_MAX_MANTISSA`: the widest 96 bit coefficient. -/
def MAX_MANTISSA : Nat := 79228162514264337593543950335

/-- Why a validator rejects a text. -/
inductive DecimalFailure where
  | blank
  | grammar (reason : String)
  | integer (message : String)
  | tooWide
  deriving DecidableEq, Repr

/-- `decimalParts`: an accepted text, split. -/
structure DecimalParts where
  negative : Bool
  whole : List Char
  fraction : Option (List Char)
  deriving DecidableEq, Repr

/-- The checks of a validator, by what its language trims and how it reads digits. -/
def validateText (isSpace : Char → Bool) (readInteger : List Char → Except String Nat)
    (text : String) : Except DecimalFailure DecimalParts :=
  if text.toList.all isSpace then .error .blank
  else match grammarViolation text.toList with
    | some reason => .error (.grammar reason)
    | none =>
      let halves := pieces (stripMinus text.toList)
      match readInteger (halves.1 ++ halves.2.getD []) with
      | .error message => .error (.integer message)
      | .ok mantissa =>
        if MAX_MANTISSA < mantissa then .error .tooWide
        else .ok ⟨text.toList.head? = some '-', halves.1, halves.2⟩

/-- Digits as an unbounded integer. -/
def readDigits (digits : List Char) : Except String Nat :=
  match digitsValue 0 digits with
  | none => .error "expected only digits"
  | some value => .ok value

namespace Go

inductive DecimalErrorKind where
  | empty
  | notBase10
  | outOfRange
  deriving DecidableEq, Repr

structure DecimalError where
  kind : DecimalErrorKind
  value : String
  reason : String
  deriving DecidableEq, Repr

def decimalError (text : String) : DecimalFailure → DecimalError
  | .blank => ⟨.empty, text, ""⟩
  | .grammar reason => ⟨.notBase10, text, reason⟩
  | .integer reason => ⟨.notBase10, text, reason⟩
  | .tooWide => ⟨.outOfRange, text, "the mantissa needs more than the 96 bits a decimal holds"⟩

/-- `validateDecimalText`; `strings.TrimSpace` trims what Unicode calls White_Space. -/
def validateDecimalText (text : String) : Except DecimalError DecimalParts :=
  match validateText isWhitespace readDigits text with
  | .error failure => .error (decimalError text failure)
  | .ok parts => .ok parts

/-- `Decimal.Rat`. -/
def rat (text : String) : Except DecimalError ℚ :=
  match validateDecimalText text with
  | .error error => .error error
  | .ok parts => match digitsValue 0 (parts.whole ++ parts.fraction.getD []) with
    | none => .error ⟨.notBase10, text, "expected only digits"⟩
    | some mantissa =>
      let signed : Int := if parts.negative then -mantissa else mantissa
      match parts.fraction with
      | none => .ok signed
      | some fraction => .ok (signed / 10 ^ fraction.length)

end Go

namespace Python

/-- `str.isspace` on one character. -/
def isSpace (c : Char) : Bool :=
  let n := c.toNat
  isWhitespace c || (0x1C ≤ n && n ≤ 0x1F)

/-- `int` on digits, with the limit of `sys.get_int_max_str_digits`; zero is no limit. -/
def readInt (maxStrDigits : Nat) (digits : List Char) : Except String Nat :=
  if maxStrDigits ≠ 0 ∧ maxStrDigits < digits.length then
    .error ("Exceeds the limit (" ++ toString maxStrDigits ++
      " digits) for integer string conversion: value has " ++ toString digits.length ++ " digits")
  else readDigits digits

/-- `_validate_decimal_text`. -/
def validateDecimalText (maxStrDigits : Nat) (text : String) :
    Except DecimalFailure DecimalParts :=
  validateText isSpace (readInt maxStrDigits) text

end Python

namespace TypeScript

/-- What `String.prototype.trim` trims: WhiteSpace and LineTerminator. -/
def isSpace (c : Char) : Bool :=
  let n := c.toNat
  (isWhitespace c && n ≠ 0x85) || n = 0xFEFF

/-- `validateDecimalText`. -/
def validateDecimalText (text : String) : Except DecimalFailure DecimalParts :=
  validateText isSpace readDigits text

end TypeScript

section Accepted

variable {isSpace : Char → Bool} {readInteger : List Char → Except String Nat} {text : String}

/-- A text of the grammar is judged by the integer that its digits spell. -/
theorem validateText_numeral (visible : ∀ c : Char, c.isDigit = true → isSpace c = false)
    {numeral : Numeral} (same : numeral.text = text.toList) :
    validateText isSpace readInteger text = match readInteger numeral.digits with
      | .error message => .error (.integer message)
      | .ok mantissa =>
        if MAX_MANTISSA < mantissa then .error .tooWide
        else .ok ⟨numeral.negative, numeral.whole, numeral.fraction⟩ := by
  have digits : numeral.whole ++ numeral.fraction.getD [] = numeral.digits := rfl
  unfold validateText
  rw [← same, numeral.not_blank visible, numeral.grammarViolation_text, numeral.stripMinus_text,
    numeral.pieces_body]
  simp only [Bool.false_eq_true, if_false, digits, numeral.head_text, Bool.decide_eq_true]

/-- Only texts of the grammar are accepted. -/
theorem numeral_of_validated {parts : DecimalParts}
    (accepted : validateText isSpace readInteger text = .ok parts) :
    ∃ numeral : Numeral, numeral.text = text.toList := by
  unfold validateText at accepted
  split at accepted
  · cases accepted
  split at accepted
  · cases accepted
  rename_i passes
  exact numeral_of_grammar passes

theorem readDigits_numeral (numeral : Numeral) :
    readDigits numeral.digits = .ok numeral.coefficient := by
  simp [readDigits, numeral.digitsValue_digits]

/-- Where the digits are read whenever `readable` holds, a text is accepted just if it
is of the grammar, readable, and its coefficient fits 96 bits. -/
theorem validateText_accepts_iff (visible : ∀ c : Char, c.isDigit = true → isSpace c = false)
    {readable : Numeral → Prop}
    (reads : ∀ numeral, readable numeral → readInteger numeral.digits = .ok numeral.coefficient)
    (fails : ∀ numeral, ¬ readable numeral → ∃ message, readInteger numeral.digits = .error message) :
    (∃ parts, validateText isSpace readInteger text = .ok parts) ↔
      ∃ numeral : Numeral, numeral.text = text.toList ∧ readable numeral ∧
        numeral.coefficient < 2 ^ 96 := by
  have bound : MAX_MANTISSA + 1 = 2 ^ 96 := by decide
  constructor
  · rintro ⟨parts, accepted⟩
    obtain ⟨numeral, same⟩ := numeral_of_validated accepted
    rw [validateText_numeral visible same] at accepted
    by_cases able : readable numeral
    · rw [reads numeral able] at accepted
      dsimp only at accepted
      split at accepted
      · cases accepted
      · exact ⟨numeral, same, able, by omega⟩
    · obtain ⟨message, failed⟩ := fails numeral able
      rw [failed] at accepted
      cases accepted
  · rintro ⟨numeral, same, able, small⟩
    refine ⟨⟨numeral.negative, numeral.whole, numeral.fraction⟩, ?_⟩
    rw [validateText_numeral visible same, reads numeral able]
    exact if_neg (by omega)

end Accepted

section Validators

variable {text : String}

theorem go_accepts_iff :
    (∃ parts, Go.validateDecimalText text = .ok parts) ↔
      ∃ numeral : Numeral, numeral.text = text.toList ∧ numeral.coefficient < 2 ^ 96 := by
  have shared := @validateText_accepts_iff isWhitespace readDigits text
    (fun _ => isWhitespace_digit) (fun _ => True) (fun numeral _ => readDigits_numeral numeral)
    (fun _ never => absurd trivial never)
  simp only [true_and] at shared
  rw [← shared]
  unfold Go.validateDecimalText
  constructor
  · rintro ⟨parts, accepted⟩
    split at accepted
    · cases accepted
    · exact ⟨_, by assumption⟩
  · rintro ⟨parts, accepted⟩
    exact ⟨parts, by rw [accepted]⟩

theorem typeScript_accepts_iff :
    (∃ parts, TypeScript.validateDecimalText text = .ok parts) ↔
      ∃ numeral : Numeral, numeral.text = text.toList ∧ numeral.coefficient < 2 ^ 96 := by
  have visible : ∀ c : Char, c.isDigit = true → TypeScript.isSpace c = false := by
    intro c digit
    have range := digit_toNat digit
    simp [TypeScript.isSpace, isWhitespace_digit digit]
    omega
  have shared := @validateText_accepts_iff TypeScript.isSpace readDigits text visible
    (fun _ => True) (fun numeral _ => readDigits_numeral numeral)
    (fun _ never => absurd trivial never)
  simp only [true_and] at shared
  exact shared

theorem python_accepts_iff (maxStrDigits : Nat) :
    (∃ parts, Python.validateDecimalText maxStrDigits text = .ok parts) ↔
      ∃ numeral : Numeral, numeral.text = text.toList ∧
        (maxStrDigits = 0 ∨ numeral.digits.length ≤ maxStrDigits) ∧
        numeral.coefficient < 2 ^ 96 := by
  apply validateText_accepts_iff
  · intro c digit
    have range := digit_toNat digit
    simp [Python.isSpace, isWhitespace_digit digit]
    omega
  · intro numeral able
    unfold Python.readInt
    rw [if_neg (by omega), readDigits_numeral]
  · intro numeral unable
    exact ⟨_, if_pos (by omega)⟩

/-- A coefficient that fits is far from out of range. -/
theorem inRange_of_small {numeral : Numeral} (small : numeral.coefficient < 2 ^ 96) :
    ¬ OutOfRange numeral.number := by
  rw [OutOfRange, numeral.abs_number, not_le]
  have bound : ((numeral.coefficient + 1 : Nat) : ℚ) ≤ ((2 ^ 96 : Nat) : ℚ) := by
    exact_mod_cast small
  have scaled : (numeral.coefficient : ℚ) / 10 ^ numeral.scale ≤ numeral.coefficient :=
    div_le_self (Nat.cast_nonneg _) (one_le_pow₀ (by norm_num))
  push_cast at bound
  linarith

theorem representable_of_small {numeral : Numeral} (small : numeral.coefficient < 2 ^ 96) :
    Representable numeral.number := by
  refine ⟨.signed numeral.negative (numeral.coefficient, numeral.scale), ?_, numeral.scale_le, ?_⟩
  · unfold Decimal.signed
    split
    · simpa using small
    · simpa using small
  · rw [Decimal.value_signed, Numeral.number]
    split
    · rw [neg_div]
    · rfl

theorem host_accepts_iff {ops : DecimalOps} (documented : ops.Documented) :
    (∃ decimal, commonToDecimal ops text = .ok decimal) ↔
      ∃ numeral : Numeral, numeral.text = text.toList ∧ ¬ OutOfRange numeral.number := by
  constructor
  · rintro ⟨decimal, decoded⟩
    obtain ⟨numeral, same, parsed⟩ := numeral_of_decoded decoded
    refine ⟨numeral, same, ?_⟩
    intro beyond
    obtain ⟨source, rejected⟩ := documented.rejects numeral text same beyond
    rw [parsed] at rejected
    cases rejected
  · rintro ⟨numeral, same, inRange⟩
    obtain ⟨decimal, parsed⟩ := documented.rounds numeral text same inRange
    exact ⟨decimal, by rw [commonToDecimal_numeral same, parsed]⟩

/-- `Rat` is the number of the text. -/
theorem rat_numeral {numeral : Numeral} (same : numeral.text = text.toList)
    (small : numeral.coefficient < 2 ^ 96) : Go.rat text = .ok numeral.number := by
  have bound : MAX_MANTISSA + 1 = 2 ^ 96 := by decide
  have validated : Go.validateDecimalText text =
      .ok ⟨numeral.negative, numeral.whole, numeral.fraction⟩ := by
    unfold Go.validateDecimalText
    rw [validateText_numeral (fun _ => isWhitespace_digit) same, readDigits_numeral]
    dsimp only
    rw [if_neg (by omega)]
  have digits : numeral.whole ++ numeral.fraction.getD [] = numeral.digits := rfl
  unfold Go.rat Numeral.number Numeral.scale
  rw [validated]
  simp only [digits, numeral.digitsValue_digits]
  cases numeral.fraction with
  | none => cases numeral.negative <;> simp
  | some fraction => cases numeral.negative <;> simp

/-- The validators and the host agree on a payload just if it is outside the grammar,
its coefficient fits 96 bits and Python reads that many digits, or its number is out of
range. -/
theorem sdk_decimals_agree_iff {ops : DecimalOps} (documented : ops.Documented)
    (maxStrDigits : Nat) (payload : String) :
    (((∃ parts, Go.validateDecimalText payload = .ok parts) ↔
          ∃ decimal, commonToDecimal ops payload = .ok decimal) ∧
        ((∃ parts, Python.validateDecimalText maxStrDigits payload = .ok parts) ↔
          ∃ decimal, commonToDecimal ops payload = .ok decimal) ∧
        ((∃ parts, TypeScript.validateDecimalText payload = .ok parts) ↔
          ∃ decimal, commonToDecimal ops payload = .ok decimal) ∧
        ∀ decimal, commonToDecimal ops payload = .ok decimal →
          Go.rat payload = .ok decimal.value) ↔
      ∀ numeral : Numeral, numeral.text = payload.toList →
        (numeral.coefficient < 2 ^ 96 ∧
          (maxStrDigits = 0 ∨ numeral.digits.length ≤ maxStrDigits)) ∨
        OutOfRange numeral.number := by
  rw [go_accepts_iff, typeScript_accepts_iff, python_accepts_iff, host_accepts_iff documented]
  have only : ∀ {first second : Numeral}, first.text = payload.toList →
      second.text = payload.toList → first = second :=
    fun left right => Numeral.text_injective (left.trans right.symm)
  constructor
  · rintro ⟨go, python, _, _⟩ numeral same
    by_cases beyond : OutOfRange numeral.number
    · exact .inr beyond
    · left
      obtain ⟨accepted, text, small⟩ := go.mpr ⟨numeral, same, beyond⟩
      obtain ⟨read, text', able, _⟩ := python.mpr ⟨numeral, same, beyond⟩
      rw [only text same] at small
      rw [only text' same] at able
      exact ⟨small, able⟩
  · intro fits
    have narrow : (∃ numeral : Numeral, numeral.text = payload.toList ∧
        numeral.coefficient < 2 ^ 96) ↔
        ∃ numeral : Numeral, numeral.text = payload.toList ∧ ¬ OutOfRange numeral.number := by
      constructor
      · rintro ⟨numeral, same, small⟩
        exact ⟨numeral, same, inRange_of_small small⟩
      · rintro ⟨numeral, same, inRange⟩
        exact ⟨numeral, same, ((fits numeral same).resolve_right inRange).1⟩
    refine ⟨narrow, ?_, narrow, ?_⟩
    · constructor
      · rintro ⟨numeral, same, _, small⟩
        exact ⟨numeral, same, inRange_of_small small⟩
      · rintro ⟨numeral, same, inRange⟩
        obtain ⟨small, able⟩ := (fits numeral same).resolve_right inRange
        exact ⟨numeral, same, able, small⟩
    · intro decimal decoded
      obtain ⟨numeral, same, parsed⟩ := numeral_of_decoded decoded
      obtain ⟨_, same', inRange⟩ := (host_accepts_iff documented).mp ⟨decimal, decoded⟩
      rw [only same' same] at inRange
      obtain ⟨small, _⟩ := (fits numeral same).resolve_right inRange
      obtain ⟨exact, taken, value⟩ := documented.exact numeral payload same
        (representable_of_small small)
      rw [rat_numeral same small, ← value, Except.ok.inj (parsed.symm.trans taken)]

theorem sdk_decimals_agree_iff_short :
    rustDecimal.Documented ∧
      Go.rat "-1.50" = .ok (Decimal.value ⟨-150, 2⟩) ∧
      commonToDecimal rustDecimal "-1.50" = .ok ⟨-150, 2⟩ := by
  have decoded : commonToDecimal rustDecimal "-1.50" = .ok ⟨-150, 2⟩ := by decide +kernel
  refine ⟨rustDecimal_documented, ?_, decoded⟩
  apply ((sdk_decimals_agree_iff rustDecimal_documented 4300 "-1.50").mpr ?_).2.2.2 _ decoded
  intro numeral text
  let payload : Numeral := ⟨true, "1".toList, some "50".toList, by decide, by simp; decide⟩
  obtain rfl : numeral = payload := Numeral.text_injective (text.trans rfl)
  exact .inl ⟨by decide +kernel, .inr (by decide)⟩

/-- The host takes the widest decimal with a trailing zero; every SDK refuses it. -/
theorem sdk_rejects_host_decimal :
    rustDecimal.Documented ∧
      commonToDecimal rustDecimal "79228162514264337593543950335.0" =
        .ok ⟨79228162514264337593543950335, 0⟩ ∧
      (Go.validateDecimalText "79228162514264337593543950335.0") =
        .error ⟨.outOfRange, "79228162514264337593543950335.0",
          "the mantissa needs more than the 96 bits a decimal holds"⟩ ∧
      (Python.validateDecimalText 4300 "79228162514264337593543950335.0") = .error .tooWide ∧
      (TypeScript.validateDecimalText "79228162514264337593543950335.0") = .error .tooWide :=
  ⟨rustDecimal_documented, by decide +kernel, by decide +kernel, by decide +kernel,
    by decide +kernel⟩

end Validators

end LongTrader.Sdk
