import Mathlib.Data.BitVec
import Mathlib.Data.Finset.Card
import Mathlib.Data.Nat.ModEq
import Mathlib.Data.Nat.Prime.Basic
import Mathlib.Tactic.Ring

/-! Pseudo-random words: a counter that goes through all the words of a width, and one-to-one operations that
scramble it, so that each period draws each word once. -/

namespace LongTrader.Scramble

variable {width : Nat}

def xorShift (shift : Nat) (word : BitVec width) : BitVec width := word ^^^ (word >>> shift)

/-- The upper bits are left as they are, and give the lower ones back. -/
theorem xorShift_injective {shift : Nat} (positive : 0 < shift) :
    Function.Injective (xorShift shift : BitVec width → BitVec width) := by
  intro first second same
  have upper : ∀ below index, width ≤ index + below → first.getLsbD index = second.getLsbD index := by
    intro below
    induction below with
    | zero =>
      intro index beyond
      rw [BitVec.getLsbD_of_ge first index beyond, BitVec.getLsbD_of_ge second index beyond]
    | succ below ih =>
      intro index beyond
      have bits := congrArg (fun word => word.getLsbD index) same
      simp only [xorShift, BitVec.getLsbD_xor, BitVec.getLsbD_ushiftRight] at bits
      rw [ih (shift + index) (by omega)] at bits
      exact Bool.xor_left_inj.mp bits
  apply BitVec.eq_of_getLsbD_eq
  intro index _
  exact upper width index (by omega)

theorem mul_injective {factor : BitVec width} (odd : Odd factor.toNat) :
    Function.Injective fun word : BitVec width => word * factor := by
  intro first second same
  have product := congrArg BitVec.toNat same
  simp only [BitVec.toNat_mul] at product
  have coprime : (2 ^ width).gcd factor.toNat = 1 := (Nat.coprime_two_left.mpr odd).pow_left width
  have congruent : first.toNat ≡ second.toNat [MOD 2 ^ width] := Nat.ModEq.cancel_right_of_coprime coprime product
  apply BitVec.eq_of_toNat_eq
  have equal := congruent
  rwa [Nat.ModEq, Nat.mod_eq_of_lt first.isLt, Nat.mod_eq_of_lt second.isLt] at equal

def walk (gamma seed : BitVec width) (steps : Nat) : BitVec width := seed + BitVec.ofNat width steps * gamma

theorem walk_succ (gamma seed : BitVec width) (steps : Nat) :
    walk gamma seed (steps + 1) = walk gamma seed steps + gamma := by
  rw [walk, walk, BitVec.ofNat_add, add_mul, BitVec.one_mul, add_assoc]

theorem walk_injOn {gamma : BitVec width} (odd : Odd gamma.toNat) (seed : BitVec width) :
    Set.InjOn (walk gamma seed) (Set.Iio (2 ^ width)) := by
  intro first below second under same
  have steps := mul_injective odd (add_left_cancel same)
  have numbers := congrArg BitVec.toNat steps
  rwa [BitVec.toNat_ofNat, BitVec.toNat_ofNat, Nat.mod_eq_of_lt below, Nat.mod_eq_of_lt under] at numbers

/-- A period of a scrambled counter has each word once, whatever it starts with. -/
theorem image_period {gamma : BitVec width} (odd : Odd gamma.toNat) (seed : BitVec width)
    {mix : BitVec width → BitVec width} (mixes : Function.Injective mix) :
    (Finset.range (2 ^ width)).image (fun steps => (mix (walk gamma seed steps)).toNat) =
      Finset.range (2 ^ width) := by
  apply Finset.eq_of_subset_of_card_le
  · intro number member
    obtain ⟨steps, -, rfl⟩ := Finset.mem_image.mp member
    exact Finset.mem_range.mpr (BitVec.isLt _)
  · rw [Finset.card_image_of_injOn]
    intro first below second under same
    have words := mixes (BitVec.eq_of_toNat_eq same)
    exact walk_injOn odd seed (by simpa using below) (by simpa using under) words

/-- A property of words has as many draws in a period as there are words that have it. -/
theorem card_period {gamma : BitVec width} (odd : Odd gamma.toNat) (seed : BitVec width)
    {mix : BitVec width → BitVec width} (mixes : Function.Injective mix) (holds : Nat → Prop) [DecidablePred holds] :
    ((Finset.range (2 ^ width)).filter fun steps => holds (mix (walk gamma seed steps)).toNat).card =
      ((Finset.range (2 ^ width)).filter holds).card := by
  have whole := image_period odd seed mixes
  conv_rhs => rw [← whole, Finset.filter_image]
  rw [Finset.card_image_of_injOn]
  intro first below second under same
  have words := mixes (BitVec.eq_of_toNat_eq same)
  have first_range := (Finset.mem_filter.mp below).1
  have second_range := (Finset.mem_filter.mp under).1
  exact walk_injOn odd seed (by simpa using first_range) (by simpa using second_range) words

theorem exists_walk (positive : 0 < width) {gamma : BitVec width} (odd : Odd gamma.toNat) (seed target : BitVec width) :
    ∃ steps < 2 ^ width, walk gamma seed steps = target ∧ steps % 2 = (target - seed).toNat % 2 := by
  have member : target.toNat ∈ Finset.range (2 ^ width) := Finset.mem_range.mpr target.isLt
  rw [← image_period odd seed Function.injective_id] at member
  obtain ⟨steps, within, same⟩ := Finset.mem_image.mp member
  have reached : walk gamma seed steps = target := BitVec.eq_of_toNat_eq same
  refine ⟨steps, Finset.mem_range.mp within, reached, ?_⟩
  have distance : target - seed = BitVec.ofNat width steps * gamma := by
    rw [← reached, walk]
    ring
  have divides : 2 ∣ 2 ^ width := dvd_pow_self 2 positive.ne'
  rw [distance, BitVec.toNat_mul, BitVec.toNat_ofNat, Nat.mod_mod_of_dvd _ divides, Nat.mul_mod,
    Nat.mod_mod_of_dvd _ divides, Nat.odd_iff.mp odd, Nat.mul_one, Nat.mod_mod]

end LongTrader.Scramble
