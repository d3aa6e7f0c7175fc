import Mathlib.Data.List.Basic

/-! The exponential moving averages of the worker, over decimals whose operators may panic. -/

namespace LongTrader.Indicators

/-- The decimal arithmetic of the indicators; `none` is the panic of an overflowing operator or of a
division by zero. -/
structure Arithmetic (P : Type) where
  ofNat : Nat → P
  add : P → P → Option P
  sub : P → P → Option P
  mul : P → P → Option P
  div : P → P → Option P
  abs : P → P
  lt : P → P → Bool

/-- `Ord::max`: the second of two that compare equal. -/
def Arithmetic.max {P : Type} (arith : Arithmetic P) (first second : P) : P :=
  if arith.lt second first then first else second

/-- `usize::MAX`. -/
def USIZE_MAX : Nat := 18446744073709551615

/-- Exponential moving average seeded by the first full-window SMA. -/
structure Ema (P : Type) where
  window : Nat
  k : P
  value : Option P
  seed : List P
  seedSum : P

section

variable {P : Type} (arith : Arithmetic P)

def Ema.new (window : Nat) : Option (Ema P) := do
  let k ← arith.div (arith.ofNat 2) (arith.ofNat (min (window + 1) USIZE_MAX))
  return ⟨window, k, none, [], arith.ofNat 0⟩

def Ema.push (ema : Ema P) (value : P) : Option (Ema P) :=
  match ema.value with
  | none => do
    let sum ← arith.add ema.seedSum value
    let seed := ema.seed ++ [value]
    if ema.window ≤ seed.length ∧ 0 < ema.window then
      let mean ← arith.div sum (arith.ofNat seed.length)
      return { ema with value := some mean, seed := [], seedSum := arith.ofNat 0 }
    else return { ema with seed, seedSum := sum }
  | some prev => do
    let change ← arith.sub value prev
    let step ← arith.mul change ema.k
    let next ← arith.add step prev
    return { ema with value := some next }

/-- Double exponential moving average. -/
structure Dema (P : Type) where
  ema1 : Ema P
  ema2 : Ema P

def Dema.new (window : Nat) : Option (Dema P) := do
  let ema1 ← Ema.new arith window
  let ema2 ← Ema.new arith window
  return ⟨ema1, ema2⟩

def Dema.push (dema : Dema P) (value : P) : Option (Dema P) := do
  let ema1 ← dema.ema1.push arith value
  match ema1.value with
  | none => return { dema with ema1 }
  | some first =>
    let ema2 ← dema.ema2.push arith first
    return ⟨ema1, ema2⟩

def Dema.value (dema : Dema P) : Option (Option P) :=
  match dema.ema1.value, dema.ema2.value with
  | some first, some second => do
    let twice ← arith.mul first (arith.ofNat 2)
    let value ← arith.sub twice second
    return some value
  | _, _ => some none

end

section Warmup

variable {P : Type} {arith : Arithmetic P}

/-- What an average has seen: it has a value from the first full window on, and its seed until then. -/
structure Ema.Seen (window count : Nat) (ema : Ema P) : Prop where
  size : ema.window = window
  warm : ema.value.isSome ↔ 0 < window ∧ window ≤ count
  seed : ema.value = none → ema.seed.length = count

theorem Ema.Seen.new {window : Nat} {ema : Ema P} (created : Ema.new arith window = some ema) :
    ema.Seen window 0 := by
  simp only [Ema.new, Option.bind_eq_bind, Option.bind_eq_some_iff] at created
  obtain ⟨k, _, ⟨⟩⟩ := created
  refine ⟨rfl, ?_, fun _ => rfl⟩
  simp only [Option.isSome_none, Bool.false_eq_true, false_iff]
  omega

theorem Ema.Seen.push {window count : Nat} {ema after : Ema P} {value : P}
    (seen : ema.Seen window count) (pushed : ema.push arith value = some after) :
    after.Seen window (count + 1) := by
  unfold Ema.push at pushed
  cases held : ema.value with
  | none =>
    have length := seen.seed held
    have cold : ¬ (0 < window ∧ window ≤ count) := by
      simp [← seen.warm, held]
    simp only [held, Option.bind_eq_bind, Option.bind_eq_some_iff] at pushed
    obtain ⟨sum, _, pushed⟩ := pushed
    split at pushed
    · rename_i full
      rw [List.length_append, List.length_singleton, length, seen.size] at full
      simp only [Option.bind_eq_some_iff] at pushed
      obtain ⟨mean, _, ⟨⟩⟩ := pushed
      exact ⟨seen.size, by simp [full.1, full.2], nofun⟩
    · rename_i short
      rw [List.length_append, List.length_singleton, length, seen.size] at short
      obtain ⟨⟩ := pushed
      refine ⟨seen.size, ?_, fun _ => by simp [length]⟩
      simp only [Option.isSome_none, Bool.false_eq_true, false_iff]
      omega
  | some prev =>
    have warm : 0 < window ∧ window ≤ count := seen.warm.mp (by rw [held]; rfl)
    simp only [held, Option.bind_eq_bind, Option.bind_eq_some_iff] at pushed
    obtain ⟨change, _, step, _, next, _, ⟨⟩⟩ := pushed
    refine ⟨seen.size, ?_, nofun⟩
    simp only [Option.isSome_some, true_iff]
    omega

/-- The second average of a double one is fed from the first value of the first on. -/
structure Dema.Seen (window count : Nat) (dema : Dema P) : Prop where
  first : dema.ema1.Seen window count
  second : dema.ema2.Seen window (if 0 < window then count + 1 - window else 0)

theorem Dema.Seen.new {window : Nat} {dema : Dema P} (created : Dema.new arith window = some dema) :
    dema.Seen window 0 := by
  simp only [Dema.new, Option.bind_eq_bind, Option.bind_eq_some_iff] at created
  obtain ⟨ema1, first, ema2, second, ⟨⟩⟩ := created
  have unfed : (if 0 < window then 0 + 1 - window else 0) = 0 := by
    split
    · omega
    · rfl
  exact ⟨.new first, by simpa only [unfed] using Ema.Seen.new second⟩

theorem Dema.Seen.push {window count : Nat} {dema after : Dema P} {value : P}
    (seen : dema.Seen window count) (pushed : dema.push arith value = some after) :
    after.Seen window (count + 1) := by
  simp only [Dema.push, Option.bind_eq_bind, Option.bind_eq_some_iff] at pushed
  obtain ⟨ema1, pushedFirst, pushed⟩ := pushed
  have first := seen.first.push pushedFirst
  cases held : ema1.value with
  | none =>
    simp only [held] at pushed
    obtain ⟨⟩ := pushed
    have cold : ¬ (0 < window ∧ window ≤ count + 1) := by
      simp [← first.warm, held]
    refine ⟨first, ?_⟩
    have same : (if 0 < window then count + 1 + 1 - window else 0) =
        if 0 < window then count + 1 - window else 0 := by
      split
      · omega
      · rfl
    rw [same]
    exact seen.second
  | some value =>
    simp only [held, Option.bind_eq_some_iff] at pushed
    obtain ⟨ema2, pushedSecond, ⟨⟩⟩ := pushed
    obtain ⟨positive, full⟩ := first.warm.mp (by rw [held]; rfl)
    have second := seen.second.push pushedSecond
    rw [if_pos positive] at second
    refine ⟨first, ?_⟩
    rw [if_pos positive, Nat.succ_sub full]
    exact second

/-- A double average has a value after `2 * window - 1` samples. -/
theorem Dema.Seen.warm {window count : Nat} {dema : Dema P} (seen : dema.Seen window count) {value : P}
    (valued : dema.value arith = some (some value)) : 0 < window ∧ 2 * window ≤ count + 1 := by
  unfold Dema.value at valued
  split at valued
  · rename_i first second held1 held2
    obtain ⟨positive, full⟩ := seen.first.warm.mp (by rw [held1]; rfl)
    have fed := seen.second.warm.mp (by rw [held2]; rfl)
    rw [if_pos positive] at fed
    omega
  · cases valued

end Warmup

end LongTrader.Indicators
