import LongTrader.Scramble
import LongTrader.Strategy.Executors
import Mathlib.Data.Rat.Floor
import Mathlib.Tactic.FieldSimp
import Mathlib.Tactic.Linarith
import Mathlib.Tactic.NormNum

/-! The strategy that trades at random, with the generator that it draws from: 64-bit words, and fractions of 18
digits that are made of them. -/

namespace LongTrader.Strategy.RandomEntry

open Scramble

/-- `SplitMix64`: a counter, scrambled by `next_u64`. -/
structure SplitMix64 where
  state : BitVec 64
  deriving DecidableEq

/-- The step of the counter. -/
def gamma : BitVec 64 := 0x9E3779B97F4A7C15

/-- How a state is scrambled. -/
def mix (state : BitVec 64) : BitVec 64 :=
  xorShift 31 (xorShift 27 (xorShift 30 state * 0xBF58476D1CE4E5B9) * 0x94D049BB133111EB)

/-- `next_u64`: the counter is moved first. -/
def SplitMix64.nextU64 (rng : SplitMix64) : BitVec 64 × SplitMix64 :=
  let state := rng.state + gamma
  (mix state, ⟨state⟩)

/-- The fraction that a word is made into, a decimal of 18 digits. Irreducible, as the product would be unfolded
one by one. -/
@[irreducible]
def fractionOf (word : Nat) : ℚ := (word * 10 ^ 18 / 2 ^ 64 : Nat) / 10 ^ 18

/-- `next_fraction`. -/
def SplitMix64.nextFraction (rng : SplitMix64) : ℚ × SplitMix64 :=
  let (word, next) := rng.nextU64
  (fractionOf word.toNat, next)

/-- `decide`: whether to buy, if there is an entry at all; only then is there a second draw. -/
def SplitMix64.decide (rng : SplitMix64) (probability : ℚ) : Option Bool × SplitMix64 :=
  let (fraction, next) := rng.nextFraction
  if probability ≤ fraction then (none, next)
  else
    let (word, last) := next.nextU64
    (some (word &&& 1 == 0), last)

structure RandomEntryConfig where
  exchangeId : ExchangeId
  symbol : String
  entryProbability : ℚ
  qty : ℚ
  seed : BitVec 64

/-- What is done about a decision. -/
def RandomEntryConfig.entry (config : RandomEntryConfig) (answer : Option PortError) : Option Bool → List Submission
  | none => []
  | some isBuy => [⟨marketOrder config.exchangeId config.symbol isBuy config.qty, answer.isNone⟩]

/-- `RandomEntry::tick`, with what the venue says to the order if it refuses it. -/
def RandomEntryConfig.tick (config : RandomEntryConfig) (rng : SplitMix64) (answer : Option PortError) :
    SplitMix64 × List Submission :=
  let decided := rng.decide config.entryProbability
  (decided.2, config.entry answer decided.1)

/-- `RandomEntry::run`: a tick for each answer. -/
def RandomEntryConfig.run (config : RandomEntryConfig) (answers : List (Option PortError)) : List Submission :=
  (ticks config.tick ⟨config.seed⟩ answers).2

theorem gamma_odd : Odd gamma.toNat := by decide

theorem mix_injective : Function.Injective mix := by
  have first : Odd (0xBF58476D1CE4E5B9 : BitVec 64).toNat := by decide
  have second : Odd (0x94D049BB133111EB : BitVec 64).toNat := by decide
  intro one other same
  have outer := xorShift_injective (by decide) same
  have middle := xorShift_injective (by decide) (mul_injective second outer)
  exact xorShift_injective (by decide) (mul_injective first middle)

theorem fractionOf_nonneg (word : Nat) : 0 ≤ fractionOf word := by
  rw [fractionOf]
  exact div_nonneg (Nat.cast_nonneg _) (by norm_num)

/-- Below a bound are as many words as the bound says, rounded up to the fractions and then to the words. -/
theorem fractionOf_lt_iff (word : Nat) (bound : ℚ) :
    fractionOf word < bound ↔ word < ⌈(⌈bound * 10 ^ 18⌉ * 2 ^ 64 / 10 ^ 18 : ℚ)⌉.toNat := by
  calc fractionOf word < bound
      ↔ (((word * 10 ^ 18 / 2 ^ 64 : Nat) : ℤ) : ℚ) < bound * 10 ^ 18 := by
        rw [fractionOf, div_lt_iff₀ (by norm_num), Int.cast_natCast]
    _ ↔ ((word * 10 ^ 18 / 2 ^ 64 : Nat) : ℤ) < ⌈bound * 10 ^ 18⌉ := Int.lt_ceil.symm
    _ ↔ (word : ℤ) * 10 ^ 18 < ⌈bound * 10 ^ 18⌉ * 2 ^ 64 := by
        rw [Int.natCast_ediv, Nat.cast_mul]
        exact Int.ediv_lt_iff_lt_mul (by norm_num)
    _ ↔ ((word : ℤ) : ℚ) < ⌈bound * 10 ^ 18⌉ * 2 ^ 64 / 10 ^ 18 := by
        rw [lt_div_iff₀ (by norm_num)]
        exact_mod_cast Iff.rfl
    _ ↔ (word : ℤ) < ⌈(⌈bound * 10 ^ 18⌉ * 2 ^ 64 / 10 ^ 18 : ℚ)⌉ := Int.lt_ceil.symm
    _ ↔ _ := Int.lt_toNat.symm

theorem fractionOf_le (word : BitVec 64) : fractionOf word.toNat ≤ 1 - 1 / 10 ^ 18 := by
  have below : word.toNat * 10 ^ 18 / 2 ^ 64 + 1 ≤ 10 ^ 18 := by
    have bound := word.isLt
    omega
  have cast : ((word.toNat * 10 ^ 18 / 2 ^ 64 : Nat) : ℚ) + 1 ≤ 10 ^ 18 := by
    exact_mod_cast below
  rw [fractionOf, div_le_iff₀ (by norm_num)]
  linarith

section Draws

variable (rng : SplitMix64) (draws : Nat)

/-- The generator after some draws. -/
def SplitMix64.after : SplitMix64 := ⟨walk gamma rng.state draws⟩

/-- The word of a draw, and the fraction that it is made into. -/
def SplitMix64.word : BitVec 64 := mix (walk gamma (rng.state + gamma) draws)

def SplitMix64.fraction : ℚ := fractionOf (rng.word draws).toNat

theorem SplitMix64.after_zero : rng.after 0 = rng := by
  simp [after, walk]

theorem SplitMix64.after_nextU64 : (rng.after draws).nextU64 = (rng.word draws, rng.after (draws + 1)) := by
  have next : walk gamma rng.state draws + gamma = walk gamma (rng.state + gamma) draws := by
    rw [walk, walk]
    ring
  rw [nextU64, after, after, walk_succ, next]
  rfl

theorem SplitMix64.after_nextFraction :
    (rng.after draws).nextFraction = (rng.fraction draws, rng.after (draws + 1)) := by
  rw [nextFraction, SplitMix64.after_nextU64]
  rfl

end Draws

/-- In a period, whatever it starts with, as many fractions are below a bound as there are words that are made into
such fractions: an even draw of the words, which the bound rounds up to. -/
theorem SplitMix64.fractions_of_period (rng : SplitMix64) (bound : ℚ) :
    ((Finset.range (2 ^ 64)).filter fun draws => (rng.after draws).nextFraction.1 < bound).card =
      min (2 ^ 64) ⌈(⌈bound * 10 ^ 18⌉ * 2 ^ 64 / 10 ^ 18 : ℚ)⌉.toNat := by
  have drawn : ((Finset.range (2 ^ 64)).filter fun draws => (rng.after draws).nextFraction.1 < bound) =
      (Finset.range (2 ^ 64)).filter fun draws =>
        fractionOf (mix (walk gamma (rng.state + gamma) draws)).toNat < bound := by
    apply Finset.filter_congr
    intro draws _
    rw [rng.after_nextFraction draws]
    rfl
  have counted : ((Finset.range (2 ^ 64)).filter fun word => fractionOf word < bound) =
      Finset.range (min (2 ^ 64) ⌈(⌈bound * 10 ^ 18⌉ * 2 ^ 64 / 10 ^ 18 : ℚ)⌉.toNat) := by
    ext word
    rw [Finset.mem_filter, Finset.mem_range, Finset.mem_range, fractionOf_lt_iff, lt_min_iff]
  have period := card_period gamma_odd (rng.state + gamma) mix_injective fun word => fractionOf word < bound
  rw [counted, Finset.card_range] at period
  rw [drawn]
  exact period

section Entries

variable (config : RandomEntryConfig) (rng : SplitMix64)

theorem RandomEntryConfig.tick_eq (answer : Option PortError) :
    config.tick rng answer = ((rng.decide config.entryProbability).2,
      config.entry answer (rng.decide config.entryProbability).1) := by
  rw [tick]

theorem SplitMix64.after_decide (draws : Nat) (probability : ℚ) :
    (rng.after draws).decide probability = if probability ≤ rng.fraction draws then (none, rng.after (draws + 1))
      else (some (rng.word (draws + 1) &&& 1 == 0), rng.after (draws + 2)) := by
  rw [SplitMix64.decide, SplitMix64.after_nextFraction]
  dsimp only
  rw [SplitMix64.after_nextU64]

/-- A tick draws once when it does not enter, and twice when it does. -/
theorem RandomEntryConfig.tick_after (draws : Nat) (answer : Option PortError) :
    (config.entryProbability ≤ rng.fraction draws ∧
      config.tick (rng.after draws) answer = (rng.after (draws + 1), [])) ∨
    (¬config.entryProbability ≤ rng.fraction draws ∧
      ∃ submission, config.tick (rng.after draws) answer = (rng.after (draws + 2), [submission])) := by
  rw [config.tick_eq, rng.after_decide]
  by_cases idle : config.entryProbability ≤ rng.fraction draws
  · rw [if_pos idle]
    exact .inl ⟨idle, rfl⟩
  · rw [if_neg idle]
    exact .inr ⟨idle, _, rfl⟩

/-- A run without an entry has drawn once a tick, and no fraction below the probability. -/
theorem RandomEntryConfig.idle_run (draws : Nat) (answers : List (Option PortError))
    (idle : (ticks config.tick (rng.after draws) answers).2 = []) :
    ∀ tick < answers.length, config.entryProbability ≤ rng.fraction (draws + tick) := by
  induction answers generalizing draws with
  | nil => simp
  | cons answer rest ih =>
    rw [ticks] at idle
    obtain ⟨now, later⟩ := List.append_eq_nil_iff.mp idle
    rcases config.tick_after rng draws answer with ⟨above, still⟩ | ⟨-, submission, entered⟩
    · rw [still] at later
      intro tick within
      cases tick with
      | zero => exact above
      | succ tick =>
        rw [Nat.add_succ, ← Nat.succ_add]
        exact ih (draws + 1) later tick (Nat.lt_of_succ_lt_succ within)
    · rw [entered] at now
      cases now

theorem RandomEntryConfig.length_run (draws : Nat) (answers : List (Option PortError)) :
    (ticks config.tick (rng.after draws) answers).2.length ≤ answers.length := by
  induction answers generalizing draws with
  | nil => simp [ticks]
  | cons answer rest ih =>
    rw [ticks, List.length_append, List.length_cons]
    rcases config.tick_after rng draws answer with ⟨-, still⟩ | ⟨-, submission, entered⟩
    · rw [still]
      exact (Nat.zero_add _).le.trans ((ih (draws + 1)).trans (Nat.le_succ _))
    · rw [entered, List.length_singleton, Nat.add_comm]
      exact Nat.succ_le_succ (ih (draws + 2))

/-- A run with an entry in each tick has drawn twice a tick, each first fraction below the probability. -/
theorem RandomEntryConfig.busy_run (draws : Nat) (answers : List (Option PortError))
    (busy : (ticks config.tick (rng.after draws) answers).2.length = answers.length) :
    ∀ tick < answers.length, ¬config.entryProbability ≤ rng.fraction (draws + 2 * tick) := by
  induction answers generalizing draws with
  | nil => simp
  | cons answer rest ih =>
    rw [ticks, List.length_append, List.length_cons] at busy
    rcases config.tick_after rng draws answer with ⟨-, still⟩ | ⟨below, submission, entered⟩
    · have most := config.length_run rng (draws + 1) rest
      rw [still, List.length_nil, Nat.zero_add] at busy
      exact absurd (busy.symm.le.trans most) (Nat.not_succ_le_self _)
    · rw [entered, List.length_singleton, Nat.add_comm 1] at busy
      intro tick within
      cases tick with
      | zero => exact below
      | succ tick =>
        have later := ih (draws + 2) (Nat.succ.inj busy) tick (Nat.lt_of_succ_lt_succ within)
        rwa [Nat.mul_succ, Nat.add_comm (2 * tick), ← Nat.add_assoc]

theorem RandomEntryConfig.never_run (never : ∀ draws, config.entryProbability ≤ rng.fraction draws)
    (draws : Nat) (answers : List (Option PortError)) : (ticks config.tick (rng.after draws) answers).2 = [] := by
  induction answers generalizing draws with
  | nil => rfl
  | cons answer rest ih =>
    rw [ticks]
    rcases config.tick_after rng draws answer with ⟨-, still⟩ | ⟨below, -⟩
    · rw [still]
      exact ih (draws + 1)
    · exact absurd (never draws) below

theorem RandomEntryConfig.always_run (always : ∀ draws, ¬config.entryProbability ≤ rng.fraction draws)
    (draws : Nat) (answers : List (Option PortError)) :
    (ticks config.tick (rng.after draws) answers).2.length = answers.length := by
  induction answers generalizing draws with
  | nil => rfl
  | cons answer rest ih =>
    rw [ticks, List.length_append]
    rcases config.tick_after rng draws answer with ⟨above, -⟩ | ⟨-, submission, entered⟩
    · exact absurd above (always draws)
    · rw [entered, List.length_singleton, ih (draws + 2), List.length_cons, Nat.add_comm]

end Entries

theorem fractionOf_largest {word : Nat} (largest : word * 10 ^ 18 / 2 ^ 64 = 10 ^ 18 - 1) :
    fractionOf word = 1 - 1 / 10 ^ 18 := by
  rw [fractionOf, largest]
  norm_num

/-- The largest fraction is made of an even and of an odd state, so that one of them is an even number of steps
away from any other state. -/
theorem exists_largest (seed : BitVec 64) :
    ∃ state : BitVec 64, fractionOf (mix state).toNat = 1 - 1 / 10 ^ 18 ∧ (state - seed).toNat % 2 = 0 := by
  rcases Nat.mod_two_eq_zero_or_one seed.toNat with even | odd
  · refine ⟨0xCF9A04AFFA6BADC0, fractionOf_largest (by decide +kernel), ?_⟩
    rw [BitVec.toNat_sub]
    simp only [BitVec.reduceToNat]
    omega
  · refine ⟨0xF27A2DEE32FF7CD7, fractionOf_largest (by decide +kernel), ?_⟩
    rw [BitVec.toNat_sub]
    simp only [BitVec.reduceToNat]
    omega

/-- Whatever the seed: a positive probability enters at least once in a period of ticks, any other one never,
and just those above the largest fraction enter in every tick. -/
theorem RandomEntryConfig.enters_within_period (config : RandomEntryConfig) :
    (0 < config.entryProbability → ∀ answers, 2 ^ 64 ≤ answers.length → config.run answers ≠ []) ∧
    (config.entryProbability ≤ 0 → ∀ answers, config.run answers = []) ∧
    ((∀ answers, (config.run answers).length = answers.length) ↔ 1 - 1 / 10 ^ 18 < config.entryProbability) := by
  have start : ∀ answers, config.run answers =
      (ticks config.tick ((⟨config.seed⟩ : SplitMix64).after 0) answers).2 := by
    intro answers
    rw [SplitMix64.after_zero, run]
  simp only [start]
  generalize (⟨config.seed⟩ : SplitMix64) = rng
  refine ⟨fun positive answers long none_entered => ?_, fun negative => ?_, fun every => ?_, fun above => ?_⟩
  · have idle := config.idle_run rng 0 answers none_entered
    obtain ⟨draws, within, reached, -⟩ := exists_walk (by decide) gamma_odd (rng.state + gamma) 0
    have smallest : rng.fraction (0 + draws) = 0 := by
      rw [Nat.zero_add, SplitMix64.fraction, SplitMix64.word, reached]
      have zero : mix 0 = 0 := by decide
      rw [zero, fractionOf]
      simp
    have bound := idle draws (lt_of_lt_of_le within long)
    rw [smallest] at bound
    exact absurd positive (not_lt.mpr bound)
  · exact config.never_run rng (fun draws => negative.trans (fractionOf_nonneg _)) 0
  · by_contra short
    obtain ⟨state, largest, even⟩ := exists_largest (rng.state + gamma)
    obtain ⟨draws, -, reached, parity⟩ := exists_walk (by decide) gamma_odd (rng.state + gamma) state
    obtain ⟨tick, rfl⟩ : ∃ tick, draws = 2 * tick := ⟨draws / 2, by omega⟩
    have busy := config.busy_run rng 0 (List.replicate (tick + 1) none) (every _) tick (by simp)
    apply busy
    rw [Nat.zero_add, SplitMix64.fraction, SplitMix64.word, reached, largest]
    exact not_lt.mp short
  · exact config.always_run rng (fun draws => not_le.mpr (lt_of_le_of_lt (fractionOf_le _) above)) 0

end LongTrader.Strategy.RandomEntry
