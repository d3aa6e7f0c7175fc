import LongTrader.Decimal

/-! The decimal texts of the contract, as the pieces they are made of and as the
numbers they denote, and what the worker decodes from them. -/

namespace LongTrader

/-- A text of the contract's grammar: an optional minus, digits, and an optional point
with at most 28 fractional digits. -/
structure Numeral where
  negative : Bool
  whole : List Char
  fraction : Option (List Char)
  wholeDigits : isDigits whole = true
  fractionDigits : ∀ digits ∈ fraction, isDigits digits = true ∧ digits.length ≤ Decimal.MAX_SCALE

namespace Numeral

def body (numeral : Numeral) : List Char :=
  numeral.whole ++ match numeral.fraction with
    | none => []
    | some digits => '.' :: digits

def text (numeral : Numeral) : List Char :=
  (if numeral.negative then ['-'] else []) ++ numeral.body

/-- The digits before and after the point. -/
def digits (numeral : Numeral) : List Char := numeral.whole ++ numeral.fraction.getD []

/-- The integer that is left when the point is dropped. -/
def coefficient (numeral : Numeral) : Nat := (digitsValue 0 numeral.digits).getD 0

def scale (numeral : Numeral) : Nat := (numeral.fraction.getD []).length

/-- The number that a text denotes. -/
def number (numeral : Numeral) : ℚ :=
  (if numeral.negative then -(numeral.coefficient : ℚ) else numeral.coefficient) / 10 ^ numeral.scale

end Numeral

theorem isDigits_iff {chars : List Char} :
    isDigits chars = true ↔ chars ≠ [] ∧ ∀ c ∈ chars, c.isDigit = true := by
  simp [isDigits]

theorem splitPoint_absent {chars : List Char} (absent : '.' ∉ chars) : splitPoint chars = none := by
  induction chars with
  | nil => rfl
  | cons c rest ih =>
    rw [List.mem_cons, not_or] at absent
    simp [splitPoint, Ne.symm absent.1, ih absent.2]

theorem splitPoint_append {whole fraction : List Char} (absent : '.' ∉ whole) :
    splitPoint (whole ++ '.' :: fraction) = some (whole, fraction) := by
  induction whole with
  | nil => simp [splitPoint]
  | cons c rest ih =>
    rw [List.mem_cons, not_or] at absent
    simp [splitPoint, Ne.symm absent.1, ih absent.2]

theorem splitPoint_some {chars whole fraction : List Char}
    (split : splitPoint chars = some (whole, fraction)) : chars = whole ++ '.' :: fraction := by
  induction chars generalizing whole with
  | nil => cases split
  | cons c rest ih =>
    simp only [splitPoint] at split
    split at split
    · rename_i point
      obtain ⟨rfl, rfl⟩ := Prod.mk.inj (Option.some.inj split)
      simp [point]
    · obtain ⟨halves, found, same⟩ := Option.map_eq_some_iff.mp split
      obtain ⟨rfl, rfl⟩ := Prod.mk.inj same
      simp [ih found]

/-- A character that no digit is does not occur among digits. -/
theorem not_mem_digits {chars : List Char} (digits : isDigits chars = true) {c : Char}
    (other : c.isDigit = false) : c ∉ chars := by
  intro member
  have digit := (isDigits_iff.mp digits).2 c member
  rw [other] at digit
  cases digit

theorem digit_toNat {c : Char} (digit : c.isDigit = true) : 48 ≤ c.toNat ∧ c.toNat ≤ 57 := by
  simpa [Char.isDigit, UInt32.le_iff_toNat_le] using digit

theorem isWhitespace_digit {c : Char} (digit : c.isDigit = true) : isWhitespace c = false := by
  have range := digit_toNat digit
  simp only [isWhitespace, Bool.or_eq_false_iff, Bool.and_eq_false_iff, decide_eq_false_iff_not]
  omega

/-- `str::strip_prefix('-')`, or the text as it is. -/
def stripMinus (chars : List Char) : List Char :=
  match chars with
  | '-' :: rest => rest
  | chars => chars

/-- The pieces of an unsigned text around its point. -/
def pieces (body : List Char) : List Char × Option (List Char) :=
  match splitPoint body with
  | some (whole, fraction) => (whole, some fraction)
  | none => (body, none)

theorem stripMinus_of_ne {chars : List Char} (unsigned : chars.head? ≠ some '-') :
    stripMinus chars = chars := by
  unfold stripMinus
  split
  · simp at unsigned
  · rfl

theorem grammarViolation_eq (chars : List Char) :
    grammarViolation chars =
      let halves := pieces (stripMinus chars)
      if chars.contains '_' then some "digit separators are not accepted"
      else if chars.contains 'e' || chars.contains 'E' then some "exponents are not accepted"
      else if chars.head? = some '+' then some "a leading `+` is not accepted"
      else if halves.1.isEmpty then some "expected at least one digit before the decimal point"
      else if !isDigits halves.1 then some "expected only digits before the decimal point"
      else match halves.2 with
        | none => none
        | some fraction =>
          if fraction.isEmpty then some "expected at least one digit after the decimal point"
          else if !isDigits fraction then some "expected only digits after the decimal point"
          else if Decimal.MAX_SCALE < fraction.length then
            some "more fractional digits than a decimal can hold"
          else none := rfl

namespace Numeral

variable (numeral : Numeral)

theorem body_head : ∃ c rest, numeral.body = c :: rest ∧ c.isDigit = true := by
  obtain ⟨nonempty, digits⟩ := isDigits_iff.mp numeral.wholeDigits
  obtain ⟨c, rest, shape⟩ := List.exists_cons_of_ne_nil nonempty
  refine ⟨c, _, by rw [body, shape]; rfl, digits c (by simp [shape])⟩

theorem pieces_body : pieces numeral.body = (numeral.whole, numeral.fraction) := by
  have absent := not_mem_digits numeral.wholeDigits (c := '.') (by decide)
  unfold pieces body
  cases numeral.fraction with
  | none => simp [splitPoint_absent absent]
  | some digits => simp [splitPoint_append absent]

theorem stripMinus_text : stripMinus numeral.text = numeral.body := by
  obtain ⟨c, rest, shape, digit⟩ := numeral.body_head
  unfold text
  cases numeral.negative with
  | true => rfl
  | false =>
    apply stripMinus_of_ne
    intro minus
    obtain rfl : c = '-' := by simpa [shape] using minus
    cases digit

theorem mem_text {c : Char} (member : c ∈ numeral.text) : c = '-' ∨ c = '.' ∨ c.isDigit = true := by
  have inWhole : c ∈ numeral.whole → c.isDigit = true :=
    (isDigits_iff.mp numeral.wholeDigits).2 c
  have inFraction : ∀ digits ∈ numeral.fraction, c ∈ digits → c.isDigit = true :=
    fun digits present => (isDigits_iff.mp (numeral.fractionDigits digits present).1).2 c
  unfold text body at member
  rcases List.mem_append.mp member with sign | member
  · split at sign
    · exact .inl (List.mem_singleton.mp sign)
    · cases sign
  · rcases List.mem_append.mp member with whole | member
    · exact .inr (.inr (inWhole whole))
    · split at member
      · cases member
      · rename_i digits present
        rcases List.mem_cons.mp member with point | digit
        · exact .inr (.inl point)
        · exact .inr (.inr (inFraction digits present digit))

theorem not_mem_text {c : Char} (noSign : c ≠ '-') (noPoint : c ≠ '.') (noDigit : c.isDigit = false) :
    c ∉ numeral.text := by
  intro member
  rcases numeral.mem_text member with sign | point | digit
  · exact noSign sign
  · exact noPoint point
  · rw [noDigit] at digit
    cases digit

/-- A text of the grammar is not blank, whatever counts as space. -/
theorem not_blank {space : Char → Bool} (visible : ∀ c : Char, c.isDigit = true → space c = false) :
    numeral.text.all space = false := by
  obtain ⟨c, rest, shape, digit⟩ := numeral.body_head
  rw [List.all_eq_false]
  refine ⟨c, by simp [text, shape], ?_⟩
  simp [visible c digit]

/-- Every text of the grammar passes the checks of the contract. -/
theorem grammarViolation_text : grammarViolation numeral.text = none := by
  have separator : numeral.text.contains '_' = false := by
    simpa using numeral.not_mem_text (c := '_') (by decide) (by decide) (by decide)
  have lower : numeral.text.contains 'e' = false := by
    simpa using numeral.not_mem_text (c := 'e') (by decide) (by decide) (by decide)
  have upper : numeral.text.contains 'E' = false := by
    simpa using numeral.not_mem_text (c := 'E') (by decide) (by decide) (by decide)
  have plus : numeral.text.head? ≠ some '+' := fun head =>
    numeral.not_mem_text (c := '+') (by decide) (by decide) (by decide) (List.mem_of_head? head)
  have whole := isDigits_iff.mp numeral.wholeDigits
  rw [grammarViolation_eq, numeral.stripMinus_text, numeral.pieces_body]
  simp only [separator, lower, upper, plus, Bool.or_self, Bool.false_eq_true, if_false,
    List.isEmpty_iff, whole.1, numeral.wholeDigits, Bool.not_true]
  cases present : numeral.fraction with
  | none => rfl
  | some digits =>
    obtain ⟨valid, short⟩ := numeral.fractionDigits digits present
    simp [(isDigits_iff.mp valid).1, valid, Nat.not_lt.mpr short]

/-- A text determines the pieces it is made of. -/
theorem text_injective {first second : Numeral} (same : first.text = second.text) :
    first = second := by
  have bodies : first.body = second.body := by
    rw [← first.stripMinus_text, same, second.stripMinus_text]
  have halves : (first.whole, first.fraction) = (second.whole, second.fraction) := by
    rw [← first.pieces_body, bodies, second.pieces_body]
  obtain ⟨wholes, fractions⟩ := Prod.mk.inj halves
  have signs : first.negative = second.negative := by
    unfold text at same
    rw [bodies] at same
    have sizes := congrArg List.length same
    cases left : first.negative <;> cases right : second.negative <;> simp [left, right] at sizes ⊢
  cases first
  cases second
  simp_all

end Numeral

theorem sign_stripMinus (chars : List Char) :
    (if chars.head? = some '-' then ['-'] else []) ++ stripMinus chars = chars := by
  split
  · rename_i minus
    obtain ⟨rest, rfl⟩ := List.head?_eq_some_iff.mp minus
    rfl
  · rename_i unsigned
    exact stripMinus_of_ne unsigned

theorem pieces_join (chars : List Char) :
    ((pieces chars).1 ++ match (pieces chars).2 with
      | none => []
      | some digits => '.' :: digits) = chars := by
  unfold pieces
  split
  · rename_i whole fraction split
    exact (splitPoint_some split).symm
  · simp

/-- A text that passes the checks of the contract is one of its grammar. -/
theorem numeral_of_grammar {chars : List Char} (passes : grammarViolation chars = none) :
    ∃ numeral : Numeral, numeral.text = chars := by
  rw [grammarViolation_eq] at passes
  dsimp only at passes
  split at passes
  · cases passes
  split at passes
  · cases passes
  split at passes
  · cases passes
  split at passes
  · cases passes
  split at passes
  · cases passes
  rename_i whole
  have fraction : ∀ digits ∈ (pieces (stripMinus chars)).2,
      isDigits digits = true ∧ digits.length ≤ Decimal.MAX_SCALE := by
    intro digits present
    rw [present] at passes
    dsimp only at passes
    split at passes
    · cases passes
    split at passes
    · cases passes
    split at passes
    · cases passes
    rename_i valid short
    exact ⟨by simpa using valid, Nat.le_of_not_lt short⟩
  refine ⟨⟨chars.head? = some '-', (pieces (stripMinus chars)).1, (pieces (stripMinus chars)).2,
    by simpa using whole, fraction⟩, ?_⟩
  unfold Numeral.text Numeral.body
  rw [pieces_join]
  simpa using sign_stripMinus chars

section Decode

variable {ops : DecimalOps} {payload : String} {decimal : Decimal}

/-- Whatever is decoded is a text of the grammar that the parser took. -/
theorem numeral_of_decoded (decoded : commonToDecimal ops payload = .ok decimal) :
    ∃ numeral : Numeral, numeral.text = payload.toList ∧ ops.parse payload = .ok decimal := by
  unfold commonToDecimal at decoded
  split at decoded
  · cases decoded
  split at decoded
  · cases decoded
  rename_i passes
  obtain ⟨numeral, text⟩ := numeral_of_grammar passes
  refine ⟨numeral, text, ?_⟩
  split at decoded
  · cases decoded
  · rename_i parsed
    rw [parsed, Except.ok.inj decoded]

/-- A text of the grammar is decoded as it is parsed. -/
theorem commonToDecimal_numeral {numeral : Numeral} (text : numeral.text = payload.toList) :
    commonToDecimal ops payload = match ops.parse payload with
      | .error source => .error (.outOfRange payload source)
      | .ok decimal => .ok decimal := by
  unfold commonToDecimal
  rw [← text, numeral.not_blank fun c => isWhitespace_digit, numeral.grammarViolation_text]
  rfl

end Decode

/-- The numbers that a decimal can hold: a 96 bit coefficient and at most 28 fractional
digits. -/
def Representable (number : ℚ) : Prop :=
  ∃ decimal : Decimal, decimal.coefficient.natAbs < 2 ^ 96 ∧ decimal.scale ≤ Decimal.MAX_SCALE ∧
    decimal.value = number

/-- The numbers from which on rounding leads beyond `Decimal::MAX`. -/
def OutOfRange (number : ℚ) : Prop := 2 ^ 96 - 1 / 2 ≤ |number|

/-- How the parser of `rust_decimal` treats texts of the grammar: it yields decimals,
takes a number that a decimal holds as it is, rounds any other to the digits that fit,
and rejects what is then out of range. -/
structure DecimalOps.Documented (ops : DecimalOps) : Prop where
  holds : ∀ (numeral : Numeral) text decimal, numeral.text = String.toList text →
    ops.parse text = .ok decimal → Representable decimal.value
  exact : ∀ (numeral : Numeral) text, numeral.text = String.toList text →
    Representable numeral.number → ∃ decimal, ops.parse text = .ok decimal ∧
      decimal.value = numeral.number
  rounds : ∀ (numeral : Numeral) text, numeral.text = String.toList text →
    ¬ OutOfRange numeral.number → ∃ decimal, ops.parse text = .ok decimal
  rejects : ∀ (numeral : Numeral) text, numeral.text = String.toList text →
    OutOfRange numeral.number → ∃ source, ops.parse text = .error source

section Exactness

variable {ops : DecimalOps} (documented : ops.Documented) (payload : String)

include documented

/-- Decoding is exact on a payload just if it is outside the grammar, its number fits a
decimal, or its number is out of range. -/
theorem common_to_decimal_exact_iff :
    (∀ decimal, commonToDecimal ops payload = .ok decimal →
        ∃ numeral : Numeral, numeral.text = payload.toList ∧ decimal.value = numeral.number) ↔
      ∀ numeral : Numeral, numeral.text = payload.toList →
        Representable numeral.number ∨ OutOfRange numeral.number := by
  constructor
  · intro faithful numeral text
    by_contra neither
    rw [not_or] at neither
    obtain ⟨decimal, parsed⟩ := documented.rounds numeral payload text neither.2
    have decoded : commonToDecimal ops payload = .ok decimal := by
      rw [commonToDecimal_numeral text, parsed]
    obtain ⟨other, same, value⟩ := faithful decimal decoded
    obtain rfl := Numeral.text_injective (same.trans text.symm)
    have held := documented.holds other payload decimal text parsed
    rw [value] at held
    exact neither.1 held
  · intro fits decimal decoded
    obtain ⟨numeral, text, parsed⟩ := numeral_of_decoded decoded
    refine ⟨numeral, text, ?_⟩
    rcases fits numeral text with held | beyond
    · obtain ⟨kept, taken, value⟩ := documented.exact numeral payload text held
      rw [parsed] at taken
      rw [Except.ok.inj taken, value]
    · obtain ⟨source, rejected⟩ := documented.rejects numeral payload text beyond
      rw [parsed] at rejected
      cases rejected

end Exactness

end LongTrader
