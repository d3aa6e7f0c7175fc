import LongTrader.Rounding

/-! The codec of the contract's decimals: whatever the worker writes it reads back, digit for digit. -/

namespace LongTrader

/-- What a `Decimal` can hold: a 96 bit coefficient and at most 28 fractional digits. -/
def Decimal.Fits (decimal : Decimal) : Prop :=
  decimal.coefficient.natAbs < 2 ^ 96 ∧ decimal.scale ≤ Decimal.MAX_SCALE

instance (decimal : Decimal) : Decidable decimal.Fits := inferInstanceAs (Decidable (_ ∧ _))

/-- The digits and the scale of a text, as a decimal. -/
def Numeral.decimal (numeral : Numeral) : Decimal :=
  .signed numeral.negative (numeral.coefficient, numeral.scale)

/-- How `rust_decimal` writes and reads: every decimal is rendered with all of its digits, a text that
fits is read with all of its digits, and what is read fits. -/
structure DecimalOps.Lossless (ops : DecimalOps) : Prop where
  renders : ∀ decimal : Decimal, decimal.Fits → ∃ numeral : Numeral,
    numeral.text = (ops.render decimal).toList ∧ numeral.decimal = decimal
  parses : ∀ (numeral : Numeral) text, numeral.text = String.toList text → numeral.decimal.Fits →
    ops.parse text = .ok numeral.decimal
  fits : ∀ (numeral : Numeral) text decimal, numeral.text = String.toList text →
    ops.parse text = .ok decimal → decimal.Fits

theorem commonToDecimal_render {ops : DecimalOps} (lossless : ops.Lossless) {decimal : Decimal}
    (fits : decimal.Fits) : commonToDecimal ops (ops.render decimal) = .ok decimal := by
  obtain ⟨numeral, text, rfl⟩ := lossless.renders decimal fits
  rw [commonToDecimal_numeral text, lossless.parses numeral _ text fits]

/-- Whatever the encoder writes is decoded to the same digits and scale, and whatever the decoder
accepts can be written and decoded again, however the payload was spelled. -/
theorem decimal_codec_round_trip {ops : DecimalOps} (lossless : ops.Lossless) :
    (∀ decimal : Decimal, decimal.Fits → commonToDecimal ops (ops.render decimal) = .ok decimal) ∧
      ∀ payload decimal, commonToDecimal ops payload = .ok decimal →
        decimal.Fits ∧ commonToDecimal ops (ops.render decimal) = .ok decimal := by
  refine ⟨fun decimal => commonToDecimal_render lossless, fun payload decimal decoded => ?_⟩
  obtain ⟨numeral, text, parsed⟩ := numeral_of_decoded decoded
  have fits := lossless.fits numeral payload decimal text parsed
  exact ⟨fits, commonToDecimal_render lossless fits⟩

section Digits

theorem digitsValue_ofDigitChars {chars : List Char} (digits : ∀ c ∈ chars, c.isDigit = true)
    (start : Nat) : digitsValue start chars = some (Nat.ofDigitChars 10 chars start) := by
  induction chars generalizing start with
  | nil => rfl
  | cons c rest ih =>
    rw [digitsValue, if_pos (digits c (List.mem_cons_self ..)), Nat.ofDigitChars_cons, Nat.mul_comm]
    exact ih (fun other member => digits other (List.mem_cons_of_mem _ member)) _

/-- Leading zeros do not change what digits spell. -/
theorem digitsValue_zeros (count : Nat) (chars : List Char) :
    digitsValue 0 (List.replicate count '0' ++ chars) = digitsValue 0 chars := by
  induction count with
  | zero => rfl
  | succ count ih => exact ih

/-- The digits of a coefficient, at least one of them before the point. -/
def paddedDigits (coefficient scale : Nat) : List Char :=
  List.replicate (scale + 1 - (Nat.toDigits 10 coefficient).length) '0' ++ Nat.toDigits 10 coefficient

theorem paddedDigits_valid (coefficient scale : Nat) :
    ∀ c ∈ paddedDigits coefficient scale, c.isDigit = true := by
  intro c member
  rcases List.mem_append.mp member with zero | digit
  · rw [List.eq_of_mem_replicate zero]
    rfl
  · exact Nat.isDigit_of_mem_toDigits (by decide) (by decide) digit

theorem paddedDigits_length (coefficient scale : Nat) :
    scale < (paddedDigits coefficient scale).length := by
  rw [paddedDigits, List.length_append, List.length_replicate]
  omega

theorem digitsValue_paddedDigits (coefficient scale : Nat) :
    digitsValue 0 (paddedDigits coefficient scale) = some coefficient := by
  have digits : ∀ c ∈ Nat.toDigits 10 coefficient, c.isDigit = true :=
    fun c member => Nat.isDigit_of_mem_toDigits (by decide) (by decide) member
  rw [paddedDigits, digitsValue_zeros, digitsValue_ofDigitChars digits, Nat.ofDigitChars_ten_toDigits]

end Digits

/-- The pieces that a decimal is rendered of. -/
def Decimal.numeral (decimal : Decimal) (short : decimal.scale ≤ Decimal.MAX_SCALE) : Numeral :=
  let padded := paddedDigits decimal.coefficient.natAbs decimal.scale
  { negative := decimal.coefficient < 0
    whole := padded.take (padded.length - decimal.scale)
    fraction := if decimal.scale = 0 then none else some (padded.drop (padded.length - decimal.scale))
    wholeDigits := by
      have longer : decimal.scale < padded.length := paddedDigits_length ..
      refine isDigits_iff.mpr ⟨?_, fun c member => paddedDigits_valid _ _ c (List.mem_of_mem_take member)⟩
      apply List.ne_nil_of_length_pos
      rw [List.length_take]
      omega
    fractionDigits := by
      have longer : decimal.scale < padded.length := paddedDigits_length ..
      intro digits present
      split at present
      · cases present
      · rename_i pointed
        obtain rfl := Option.some.inj present
        have size : (padded.drop (padded.length - decimal.scale)).length = decimal.scale := by
          rw [List.length_drop]
          omega
        refine ⟨isDigits_iff.mpr ⟨?_, fun c member => ?_⟩, size.trans_le short⟩
        · apply List.ne_nil_of_length_pos
          omega
        · exact paddedDigits_valid _ _ c (List.mem_of_mem_drop member) }

namespace Decimal

variable {decimal : Decimal} (short : decimal.scale ≤ Decimal.MAX_SCALE)

theorem numeral_digits :
    (decimal.numeral short).digits = paddedDigits decimal.coefficient.natAbs decimal.scale := by
  unfold numeral Numeral.digits
  by_cases pointless : decimal.scale = 0
  · simp [pointless]
  · simp only [if_neg pointless, Option.getD_some, List.take_append_drop]

theorem numeral_scale : (decimal.numeral short).scale = decimal.scale := by
  have longer := paddedDigits_length decimal.coefficient.natAbs decimal.scale
  unfold numeral Numeral.scale
  by_cases pointless : decimal.scale = 0
  · simp [pointless]
  · simp only [if_neg pointless, Option.getD_some, List.length_drop]
    omega

theorem numeral_coefficient : (decimal.numeral short).coefficient = decimal.coefficient.natAbs := by
  rw [Numeral.coefficient, numeral_digits, digitsValue_paddedDigits, Option.getD_some]

/-- A decimal is its digits, its scale and its sign. -/
theorem numeral_decimal : (decimal.numeral short).decimal = decimal := by
  have sign : (decimal.numeral short).negative = decide (decimal.coefficient < 0) := rfl
  rw [Numeral.decimal, numeral_coefficient, numeral_scale, signed, sign]
  obtain ⟨coefficient, scale⟩ := decimal
  congr 1
  simp only [decide_eq_true_eq]
  omega

theorem numeral_text : (decimal.numeral short).text = decimal.text.toList := by
  have digits : (toString decimal.coefficient.natAbs).toList = Nat.toDigits 10 decimal.coefficient.natAbs := by
    rw [Nat.toString_eq_ofList_toDigits, String.toList_ofList]
  unfold Numeral.text Numeral.body numeral Decimal.text
  simp only [digits, String.toList_ofList, decide_eq_true_eq, List.append_assoc]
  rw [← paddedDigits]
  by_cases pointless : decimal.scale = 0
  · simp [pointless]
  · simp [pointless]

end Decimal

theorem Decimal.Fits.signed {kept : Nat × Nat} (small : kept.1 < 2 ^ 96) (short : kept.2 ≤ Decimal.MAX_SCALE)
    (negative : Bool) : (Decimal.signed negative kept).Fits := by
  refine ⟨?_, short⟩
  unfold Decimal.signed
  cases negative with
  | true => simpa using small
  | false => simpa using small

theorem rustDecimal_lossless : rustDecimal.Lossless := by
  refine ⟨?_, ?_, ?_⟩
  · intro decimal fits
    exact ⟨decimal.numeral fits.2, Decimal.numeral_text fits.2, Decimal.numeral_decimal fits.2⟩
  · intro numeral text same fits
    have small : numeral.coefficient < 2 ^ 96 := by
      have bound := fits.1
      unfold Numeral.decimal Decimal.signed at bound
      cases sign : numeral.negative with
      | true => simpa [sign] using bound
      | false => simpa [sign] using bound
    have whole : roundToFit numeral.coefficient numeral.scale = some (numeral.coefficient, numeral.scale) := by
      have kept : shorten 0 numeral.coefficient numeral.scale = ⟨numeral.coefficient, numeral.scale, 0⟩ := by
        cases numeral.scale with
        | zero => rfl
        | succ scale => rw [shorten, if_pos small]
      unfold roundToFit
      rw [kept]
      dsimp only
      rw [if_neg (Nat.not_le.mpr small), if_pos (by decide)]
    exact (parseRounded_numeral same).trans (by rw [whole]; rfl)
  · intro numeral text decimal same parsed
    have answered := (parseRounded_numeral same).symm.trans parsed
    split at answered
    · cases answered
    · rename_i kept rounded
      obtain rfl := Except.ok.inj answered
      obtain ⟨small, short⟩ := roundToFit_fits rounded
      exact .signed small (short.trans numeral.scale_le) _

theorem rustDecimal_round_trip :
    (∀ decimal : Decimal, decimal.Fits →
        commonToDecimal rustDecimal (rustDecimal.render decimal) = .ok decimal) ∧
      ∀ payload decimal, commonToDecimal rustDecimal payload = .ok decimal →
        decimal.Fits ∧ commonToDecimal rustDecimal (rustDecimal.render decimal) = .ok decimal :=
  decimal_codec_round_trip rustDecimal_lossless

end LongTrader
