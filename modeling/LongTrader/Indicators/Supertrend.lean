import LongTrader.Indicators.Dema

/-! The Average True Range and the Supertrend line that is drawn with it. -/

namespace LongTrader.Indicators

/-- Average True Range (Wilder smoothing). -/
structure Atr (P : Type) where
  rmaValue : Option P
  prevClose : Option P
  period : Nat
  samples : Nat
  sum : P

/-- Supertrend trend direction. -/
inductive Direction where
  | up
  | down
  | flat
  deriving DecidableEq, Repr

/-- Supertrend stop-and-reverse line. -/
structure Supertrend (P : Type) where
  atr : Atr P
  multiplier : P
  prevClose : Option P
  prevUpper : Option P
  prevLower : Option P
  direction : Direction
  value : Option P

section

variable {P : Type} (arith : Arithmetic P)

def Atr.new (period : Nat) : Atr P := ⟨none, none, max period 1, 0, arith.ofNat 0⟩

/-- The range of a bar, widened by the close before it. -/
def Atr.trueRange (atr : Atr P) (high low : P) : Option P := do
  let range ← arith.sub high low
  match atr.prevClose with
  | none => return arith.max range (arith.ofNat 0)
  | some prev =>
    let above ← arith.sub high prev
    let below ← arith.sub low prev
    return arith.max (arith.max range (arith.abs above)) (arith.abs below)

def Atr.push (atr : Atr P) (high low close : P) : Option (Atr P) := do
  let range ← atr.trueRange arith high low
  let n := arith.ofNat atr.period
  match atr.rmaValue with
  | none =>
    let sum ← arith.add atr.sum range
    let samples := atr.samples + 1
    if atr.period ≤ samples then
      let mean ← arith.div sum n
      return { atr with prevClose := some close, sum, samples, rmaValue := some mean }
    else return { atr with prevClose := some close, sum, samples }
  | some prev =>
    let others ← arith.sub n (arith.ofNat 1)
    let weighed ← arith.mul prev others
    let total ← arith.add weighed range
    let mean ← arith.div total n
    return { atr with prevClose := some close, rmaValue := some mean }

def Supertrend.new (period : Nat) (multiplier : P) : Supertrend P :=
  ⟨.new arith period, multiplier, none, none, none, .flat, none⟩

/-- The upper band only falls while the close before it stayed below. -/
def Supertrend.upper (st : Supertrend P) (basic close : P) : P :=
  match st.prevUpper, st.prevClose with
  | some pu, some pc => if !(arith.lt pu pc || arith.lt close pu) then pu else basic
  | _, _ => basic

/-- The lower band only rises while the close before it stayed above. -/
def Supertrend.lower (st : Supertrend P) (basic close : P) : P :=
  match st.prevLower, st.prevClose with
  | some pl, some pc => if !(arith.lt pc pl || arith.lt pl close) then pl else basic
  | _, _ => basic

/-- The direction after a close, which flips when it breaks the band it trails. -/
def Supertrend.turn (st : Supertrend P) (close : P) : Direction :=
  match st.prevUpper, st.prevLower with
  | some fu, some fl =>
    match st.direction with
    | .down => if arith.lt fu close then .up else .down
    | .up | .flat => if arith.lt close fl then .down else .up
  | _, _ => .up

def Supertrend.push (st : Supertrend P) (high low close : P) : Option (Supertrend P) := do
  let atr ← st.atr.push arith high low close
  match atr.rmaValue with
  | none => return { st with atr, prevClose := some close }
  | some range =>
    let total ← arith.add high low
    let hl2 ← arith.div total (arith.ofNat 2)
    let width ← arith.mul range st.multiplier
    let basicUpper ← arith.add hl2 width
    let basicLower ← arith.sub hl2 width
    let upper := st.upper arith basicUpper close
    let lower := st.lower arith basicLower close
    let direction := st.turn arith close
    let value := match direction with
      | .down => upper
      | .up | .flat => lower
    return { st with
      atr
      direction
      value := some value
      prevUpper := some upper
      prevLower := some lower
      prevClose := some close }

end

section Warmup

variable {P : Type} {arith : Arithmetic P}

/-- The range has a value from the last bar of the first period on. -/
structure Atr.Seen (period count : Nat) (atr : Atr P) : Prop where
  size : atr.period = max period 1
  warm : atr.rmaValue.isSome ↔ max period 1 ≤ count
  samples : atr.rmaValue = none → atr.samples = count

theorem Atr.Seen.new (period : Nat) : (Atr.new arith period).Seen period 0 := by
  refine ⟨rfl, ?_, fun _ => rfl⟩
  simp only [Atr.new, Option.isSome_none, Bool.false_eq_true, false_iff]
  omega

theorem Atr.Seen.push {period count : Nat} {atr after : Atr P} {high low close : P}
    (seen : atr.Seen period count) (pushed : atr.push arith high low close = some after) :
    after.Seen period (count + 1) := by
  simp only [Atr.push, Option.bind_eq_bind, Option.bind_eq_some_iff] at pushed
  obtain ⟨range, _, pushed⟩ := pushed
  cases held : atr.rmaValue with
  | none =>
    have cold : ¬ max period 1 ≤ count := by
      simp [← seen.warm, held]
    have length := seen.samples held
    simp only [held, Option.bind_eq_some_iff] at pushed
    obtain ⟨sum, _, pushed⟩ := pushed
    split at pushed
    · rename_i full
      rw [seen.size, length] at full
      simp only [Option.bind_eq_some_iff] at pushed
      obtain ⟨mean, _, ⟨⟩⟩ := pushed
      exact ⟨seen.size, by simp [full], nofun⟩
    · rename_i short
      rw [seen.size, length] at short
      obtain ⟨⟩ := pushed
      exact ⟨seen.size, by simp [short], fun _ => by simp [length]⟩
  | some prev =>
    have warm : max period 1 ≤ count := seen.warm.mp (by rw [held]; rfl)
    simp only [held, Option.bind_eq_some_iff] at pushed
    obtain ⟨others, _, weighed, _, total, _, mean, _, ⟨⟩⟩ := pushed
    exact ⟨seen.size, by simp only [Option.isSome_some, true_iff]; omega, nofun⟩

/-- The line has no direction until the range has a value. -/
structure Supertrend.Seen (period count : Nat) (st : Supertrend P) : Prop where
  atr : st.atr.Seen period count
  flat : st.direction = .flat ↔ st.atr.rmaValue = none

theorem Supertrend.Seen.new (period : Nat) (multiplier : P) :
    (Supertrend.new arith period multiplier).Seen period 0 :=
  ⟨.new period, iff_of_true rfl rfl⟩

theorem Supertrend.turn_ne_flat (st : Supertrend P) (close : P) : st.turn arith close ≠ .flat := by
  unfold Supertrend.turn
  split
  · split
    · split <;> nofun
    · split <;> nofun
    · split <;> nofun
  · nofun

theorem Supertrend.Seen.push {period count : Nat} {st after : Supertrend P} {high low close : P}
    (seen : st.Seen period count) (pushed : st.push arith high low close = some after) :
    after.Seen period (count + 1) := by
  simp only [Supertrend.push, Option.bind_eq_bind, Option.bind_eq_some_iff] at pushed
  obtain ⟨atr, ranged, pushed⟩ := pushed
  have range := seen.atr.push ranged
  cases held : atr.rmaValue with
  | none =>
    simp only [held] at pushed
    obtain ⟨⟩ := pushed
    have cold : st.atr.rmaValue = none := by
      have below : ¬ max period 1 ≤ count + 1 := by simp [← range.warm, held]
      rw [← Option.not_isSome_iff_eq_none, seen.atr.warm]
      omega
    exact ⟨range, by simp [held, seen.flat, cold]⟩
  | some value =>
    simp only [held, Option.bind_eq_some_iff] at pushed
    obtain ⟨total, _, hl2, _, width, _, upper, _, lower, _, ⟨⟩⟩ := pushed
    exact ⟨range, by simp [held, Supertrend.turn_ne_flat]⟩

/-- The line has a direction after its period. -/
theorem Supertrend.Seen.warm {period count : Nat} {st : Supertrend P} (seen : st.Seen period count)
    (directed : st.direction ≠ .flat) : max period 1 ≤ count := by
  rw [← seen.atr.warm, ← Option.ne_none_iff_isSome]
  exact fun cold => directed (seen.flat.mpr cold)

end Warmup

end LongTrader.Indicators
