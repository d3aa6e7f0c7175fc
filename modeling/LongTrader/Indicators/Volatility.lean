import LongTrader.Indicators.Rational
import Mathlib.Algebra.Order.Group.Abs
import Mathlib.Tactic.Linarith
import Mathlib.Tactic.NormNum

/-! The statistics of volatility over decimals that overflow. A `checked_` operator answers `None` where
the plain one panics, so both are the operator of the arithmetic: what differs is which `Option` its
`none` goes into. The outer one is the panic, the inner one the answer. -/

namespace LongTrader.Indicators

section

variable {P : Type} (arith : Arithmetic P)

/-- `Decimal::is_zero`. -/
def Arithmetic.isZero (value : P) : Bool :=
  !arith.lt value (arith.ofNat 0) && !arith.lt (arith.ofNat 0) value

/-- The loop of `decimal_sqrt`, with the rounds that are left. The difference of two iterates is its only
plain operator; `tolerance` is `Decimal::new(1, 8)`. -/
def Arithmetic.sqrtLoop (tolerance value : P) : Nat → P → Option P
  | 0, x => some x
  | rounds + 1, x =>
    match arith.div value x with
    | none => some x
    | some quotient =>
      match (arith.add x quotient).bind fun sum => arith.div sum (arith.ofNat 2) with
      | none => some x
      | some next =>
        if arith.lt (arith.ofNat 0) next then
          (arith.sub next x).bind fun change =>
            if arith.lt (arith.abs change) tolerance then some next
            else Arithmetic.sqrtLoop tolerance value rounds next
        else some x

def Arithmetic.decimalSqrt (tolerance value : P) : Option P :=
  if !arith.lt (arith.ofNat 0) value then some (arith.ofNat 0)
  else
    let seed := if !arith.lt value (arith.ofNat 1) then (arith.div value (arith.ofNat 2)).getD value
      else arith.ofNat 1
    arith.sqrtLoop tolerance value 64 seed

/-- The sum of the squared deviations, by checked operators. -/
def squaredDeviations (mean : P) (values : List P) : Option P :=
  values.foldlM (fun acc x => do
    let deviation ← arith.sub x mean
    let square ← arith.mul deviation deviation
    arith.add acc square) (arith.ofNat 0)

/-- The sum from zero on, by checked operators or by `Sum`. -/
def total (values : List P) : Option P := values.foldlM arith.add (arith.ofNat 0)

/-- A rolling window with a value behind it. -/
def roll (window : Nat) (buf : List P) (value : P) : List P :=
  let pushed := buf ++ [value]
  if window < pushed.length then pushed.tail else pushed

/-- One Bollinger-band snapshot. -/
structure Bands (P : Type) where
  middle : P
  upper : P
  lower : P

/-- Bollinger bands over a rolling close window. -/
structure BollingerBands (P : Type) where
  window : Nat
  mult : P
  buf : List P

def BollingerBands.new (window : Nat) (mult : P) : BollingerBands P := ⟨window, mult, []⟩

def BollingerBands.push (bands : BollingerBands P) (close : P) : BollingerBands P :=
  { bands with buf := roll bands.window bands.buf close }

/-- The mean and the variance of some closes, by checked operators. -/
def meanVariance (closes : List P) : Option (P × P) := do
  let count := arith.ofNat closes.length
  let sum ← total arith closes
  let mean ← arith.div sum count
  let squared ← squaredDeviations arith mean closes
  let variance ← arith.div squared count
  return (mean, variance)

def BollingerBands.compute (tolerance : P) (closes : List P) (mult : P) : Option (Option (Bands P)) :=
  if closes.length < 2 then some none
  else
    match meanVariance arith closes with
    | none => some none
    | some (mean, variance) => (arith.decimalSqrt tolerance variance).map fun deviation => do
      let spread ← arith.mul deviation mult
      let upper ← arith.add mean spread
      let lower ← arith.sub mean spread
      return ⟨mean, upper, lower⟩

def BollingerBands.bands (tolerance : P) (bands : BollingerBands P) : Option (Option (Bands P)) :=
  if bands.buf.length < bands.window ∨ bands.window < 2 then some none
  else BollingerBands.compute arith tolerance bands.buf bands.mult

/-- Z-score for mean-reversion detection over a rolling window. -/
structure ZScore (P : Type) where
  window : Nat
  buf : List P

def ZScore.new (window : Nat) : ZScore P := ⟨window, []⟩

def ZScore.push (score : ZScore P) (value : P) : ZScore P :=
  { score with buf := roll score.window score.buf value }

/-- The plain operators are the sum of the window and its division by the count. -/
def ZScore.value (tolerance : P) (score : ZScore P) : Option (Option P) :=
  let n := score.buf.length
  if n < 2 then some none
  else do
    let count := arith.ofNat n
    let sum ← total arith score.buf
    let mean ← arith.div sum count
    match (squaredDeviations arith mean score.buf).bind fun squared => arith.div squared count with
    | none => return none
    | some variance =>
      let std ← arith.decimalSqrt tolerance variance
      if arith.isZero std then return none
      match score.buf.getLast? with
      | none => return none
      | some last => return (arith.sub last mean).bind fun deviation => arith.div deviation std

/-- Spread tracker with rolling statistics. -/
structure SpreadTracker (P : Type) where
  window : Nat
  buf : List P

def SpreadTracker.new (window : Nat) : SpreadTracker P := ⟨window, []⟩

def SpreadTracker.push (tracker : SpreadTracker P) (spread : P) : SpreadTracker P :=
  { tracker with buf := roll tracker.window tracker.buf spread }

def SpreadTracker.mean (tracker : SpreadTracker P) : Option P :=
  if tracker.buf.isEmpty then none
  else (total arith tracker.buf).bind fun sum => arith.div sum (arith.ofNat tracker.buf.length)

def SpreadTracker.stdev (tolerance : P) (tracker : SpreadTracker P) : Option (Option P) :=
  let n := tracker.buf.length
  if n < 2 then some none
  else
    let variance := do
      let mean ← tracker.mean arith
      let squared ← squaredDeviations arith mean tracker.buf
      arith.div squared (arith.ofNat n)
    match variance with
    | none => some none
    | some variance => (arith.decimalSqrt tolerance variance).map some

/-- The plain operators are the subtraction of the mean and the division by the deviation. -/
def SpreadTracker.zScore (tolerance : P) (tracker : SpreadTracker P) (spread : P) : Option (Option P) :=
  match tracker.mean arith with
  | none => some none
  | some mean => do
    match ← tracker.stdev arith tolerance with
    | none => return none
    | some stdev =>
      if arith.isZero stdev then return none
      let deviation ← arith.sub spread mean
      let score ← arith.div deviation stdev
      return some score

end

/-- Over the rationals the loop is the exact one. -/
theorem rational_sqrtLoop (value : ℚ) (rounds : Nat) (x : ℚ) :
    Arithmetic.rational.sqrtLoop (1 / 10 ^ 8) value rounds x = some (newton value rounds x) := by
  induction rounds generalizing x with
  | zero => rfl
  | succ rounds ih =>
    rw [Arithmetic.sqrtLoop, newton]
    by_cases zero : x = 0
    · simp [zero, Arithmetic.rational]
    · have absolute : ∀ value, Arithmetic.rational.abs value = |value| := fun _ => rfl
      simp only [rational_div _ zero, rational_add, Option.bind_some, rational_ofNat, rational_sub, rational_lt,
        Nat.cast_ofNat, rational_div _ two_ne_zero, absolute, ih, if_neg zero, decide_eq_true_eq, Nat.cast_zero]
      by_cases falls : (x + value / x) / 2 ≤ 0
      · rw [if_neg falls.not_gt, if_pos falls]
      · rw [if_pos (not_le.mp falls), if_neg falls]
        exact (apply_ite some _ _ _).symm

/-- The square root that overflows nowhere is the exact one. -/
theorem rational_decimalSqrt (value : ℚ) :
    Arithmetic.rational.decimalSqrt (1 / 10 ^ 8) value = some (decimalSqrt value) := by
  simp only [Arithmetic.decimalSqrt, decimalSqrt, rational_lt, rational_ofNat, rational_sqrtLoop, Nat.cast_ofNat,
    rational_div _ two_ne_zero, Option.getD_some, Bool.not_eq_true', decide_eq_false_iff_not, not_lt,
    Nat.cast_zero, Nat.cast_one]
  exact (apply_ite some _ _ _).symm

section Rolling

variable {P : Type} (window : Nat)

/-- The last values of a list, as many as the window has room for. -/
def recent (values : List P) : List P := values.drop (values.length - window)

theorem roll_eq {buf : List P} (fits : buf.length ≤ window) (value : P) :
    roll window buf value = recent window (buf ++ [value]) := by
  rw [roll, recent]
  by_cases full : window < (buf ++ [value]).length
  · have one : (buf ++ [value]).length - window = 1 := by
      simp only [List.length_append, List.length_singleton] at full ⊢
      omega
    rw [if_pos full, one, List.drop_one]
  · rw [if_neg full, Nat.sub_eq_zero_of_le (not_lt.mp full), List.drop_zero]

theorem foldl_roll (values : List P) {buf : List P} (fits : buf.length ≤ window) :
    values.foldl (roll window) buf = recent window (buf ++ values) := by
  induction values generalizing buf with
  | nil => rw [List.foldl_nil, List.append_nil, recent, Nat.sub_eq_zero_of_le fits, List.drop_zero]
  | cons value rest ih =>
    have rolled : (roll window buf value).length ≤ window := by
      rw [roll_eq window fits, recent, List.length_drop]
      omega
    have cut : (buf ++ [value]).length - window ≤ (buf ++ [value]).length := Nat.sub_le ..
    rw [List.foldl_cons, ih rolled, roll_eq window fits, recent, recent, recent,
      ← List.drop_append_of_le_length cut, List.drop_drop, List.append_assoc, List.singleton_append]
    congr 1
    simp only [List.length_drop, List.length_append, List.length_cons, List.length_nil]
    omega

/-- The score after some pushes. -/
def ZScore.after (values : List P) : ZScore P := values.foldl ZScore.push (.new window)

/-- The tracker after some pushes. -/
def SpreadTracker.after (values : List P) : SpreadTracker P := values.foldl SpreadTracker.push (.new window)

theorem ZScore.after_eq (values : List P) : ZScore.after window values = ⟨window, recent window values⟩ := by
  have rolled : values.foldl (roll window) [] = recent window values := foldl_roll window values (Nat.zero_le window)
  rw [← rolled]
  exact List.foldl_hom (ZScore.mk window) fun _ _ => rfl

theorem SpreadTracker.after_eq (values : List P) :
    SpreadTracker.after window values = ⟨window, recent window values⟩ := by
  have rolled : values.foldl (roll window) [] = recent window values := foldl_roll window values (Nat.zero_le window)
  rw [← rolled]
  exact List.foldl_hom (SpreadTracker.mk window) fun _ _ => rfl

end Rolling

section Panics

variable {P : Type} {arith : Arithmetic P} {tolerance : P}

/-- What the square root relies on of the decimals: halving keeps a sign, and the difference of two that
are not negative is no larger than they are. -/
structure Arithmetic.Signed (arith : Arithmetic P) : Prop where
  positive : ∀ value, arith.lt (arith.ofNat 0) value = true → arith.lt value (arith.ofNat 0) = false
  one : arith.lt (arith.ofNat 1) (arith.ofNat 0) = false
  half : ∀ value half, arith.lt value (arith.ofNat 0) = false → arith.div value (arith.ofNat 2) = some half →
    arith.lt half (arith.ofNat 0) = false
  difference : ∀ first second, arith.lt first (arith.ofNat 0) = false → arith.lt second (arith.ofNat 0) = false →
    (arith.sub first second).isSome

/-- The loop never panics: its iterates are positive behind the first. -/
theorem sqrtLoop_returns (signed : arith.Signed) (value : P) (rounds : Nat) {x : P}
    (nonneg : arith.lt x (arith.ofNat 0) = false) : (arith.sqrtLoop tolerance value rounds x).isSome := by
  induction rounds generalizing x with
  | zero => rfl
  | succ rounds ih =>
    rw [Arithmetic.sqrtLoop]
    split
    · rfl
    split
    · rfl
    rename_i next _
    by_cases positive : arith.lt (arith.ofNat 0) next = true
    · have stays := signed.positive next positive
      obtain ⟨change, changed⟩ := Option.isSome_iff_exists.mp (signed.difference next x stays nonneg)
      rw [if_pos positive, changed, Option.bind_some]
      split
      · rfl
      · exact ih stays
    · rw [if_neg positive]
      rfl

theorem decimalSqrt_returns (signed : arith.Signed) (value : P) :
    (arith.decimalSqrt tolerance value).isSome := by
  rw [Arithmetic.decimalSqrt]
  by_cases positive : arith.lt (arith.ofNat 0) value = true
  · have nonneg := signed.positive value positive
    rw [if_neg (by simp [positive])]
    refine sqrtLoop_returns signed value 64 ?_
    split
    · cases halved : arith.div value (arith.ofNat 2) with
      | none => exact nonneg
      | some half => exact signed.half value half nonneg halved
    · exact signed.one
  · rw [if_pos (by simp [positive])]
    rfl

theorem compute_returns (signed : arith.Signed) (closes : List P) (mult : P) :
    (BollingerBands.compute arith tolerance closes mult).isSome := by
  rw [BollingerBands.compute]
  split
  · rfl
  split
  · rfl
  · rw [Option.isSome_map]
    exact decimalSqrt_returns signed _

/-- The score panics where its window has no sum, or the sum no quotient by the count. -/
theorem ZScore.value_returns_iff (signed : arith.Signed) (score : ZScore P) :
    (score.value arith tolerance).isSome ↔ score.buf.length < 2 ∨
      ∃ sum, total arith score.buf = some sum ∧ (arith.div sum (arith.ofNat score.buf.length)).isSome := by
  rw [ZScore.value]
  by_cases short : score.buf.length < 2
  · simp [short]
  · rw [or_iff_right short, if_neg short]
    cases summed : total arith score.buf with
    | none => simp
    | some sum =>
      cases divided : arith.div sum (arith.ofNat score.buf.length) with
      | none => simp [divided]
      | some mean =>
        refine iff_of_true ?_ ⟨sum, rfl, by rw [divided]; rfl⟩
        simp only [Option.bind_eq_bind, Option.bind_some, divided]
        split
        · rfl
        rename_i variance _
        obtain ⟨std, rooted⟩ := Option.isSome_iff_exists.mp (@decimalSqrt_returns P arith tolerance signed variance)
        simp only [rooted, Option.bind_some]
        split
        · rfl
        split
        · rfl
        · rfl

theorem SpreadTracker.stdev_returns (signed : arith.Signed) (tracker : SpreadTracker P) :
    (tracker.stdev arith tolerance).isSome := by
  rw [SpreadTracker.stdev]
  split
  · rfl
  dsimp only
  split
  · rfl
  · rw [Option.isSome_map]
    exact decimalSqrt_returns signed _

/-- The score panics where the window has a mean and a deviation that is not zero, and the distance from
the mean, or its quotient by the deviation, is not a decimal. -/
theorem SpreadTracker.zScore_returns_iff (signed : arith.Signed) (tracker : SpreadTracker P) (spread : P) :
    (tracker.zScore arith tolerance spread).isSome ↔
      ∀ mean stdev, tracker.mean arith = some mean → tracker.stdev arith tolerance = some (some stdev) →
        arith.isZero stdev = false →
          ∃ deviation, arith.sub spread mean = some deviation ∧ (arith.div deviation stdev).isSome := by
  obtain ⟨answer, deviated⟩ :=
    Option.isSome_iff_exists.mp (@SpreadTracker.stdev_returns P arith tolerance signed tracker)
  rw [SpreadTracker.zScore, deviated]
  cases tracker.mean arith with
  | none => simp
  | some mean =>
    cases answer with
    | none => simp
    | some stdev =>
      by_cases zero : arith.isZero stdev = true
      · simp [zero]
      · cases distance : arith.sub spread mean with
        | none => simp [zero, distance]
        | some deviation => cases divided : arith.div deviation stdev <;> simp [zero, distance, divided]

end Panics

/-- None of the statistics panics, but for the score of a window whose sum, or the sum over the count, is
not a decimal, and the score of a spread whose distance from the mean, or that over the deviation, is
none. -/
theorem volatility_returns_iff {P : Type} {arith : Arithmetic P} (signed : arith.Signed) (tolerance : P) :
    (∀ value, (arith.decimalSqrt tolerance value).isSome) ∧
    (∀ closes mult, (BollingerBands.compute arith tolerance closes mult).isSome) ∧
    (∀ window values, ((ZScore.after window values).value arith tolerance).isSome ↔
      (recent window values).length < 2 ∨ ∃ sum, total arith (recent window values) = some sum ∧
        (arith.div sum (arith.ofNat (recent window values).length)).isSome) ∧
    ∀ window values spread, ((SpreadTracker.after window values).zScore arith tolerance spread).isSome ↔
      ∀ mean stdev, SpreadTracker.mean arith ⟨window, recent window values⟩ = some mean →
        SpreadTracker.stdev arith tolerance ⟨window, recent window values⟩ = some (some stdev) →
          arith.isZero stdev = false →
            ∃ deviation, arith.sub spread mean = some deviation ∧ (arith.div deviation stdev).isSome := by
  refine ⟨decimalSqrt_returns signed, compute_returns signed, fun window values => ?_,
    fun window values spread => ?_⟩
  · rw [ZScore.after_eq]
    exact ZScore.value_returns_iff signed _
  · rw [SpreadTracker.after_eq]
    exact SpreadTracker.zScore_returns_iff signed _ spread

section Bounded

/-- The decimals by their magnitude, with as many digits behind the point as it takes. -/
abbrev Bounded := { value : ℚ // |value| ≤ 2 ^ 96 - 1 }

def Bounded.fit (value : ℚ) : Option Bounded := if fits : |value| ≤ 2 ^ 96 - 1 then some ⟨value, fits⟩ else none

theorem Bounded.fit_some {value : ℚ} {fitted : Bounded} (fits : Bounded.fit value = some fitted) :
    fitted.1 = value := by
  rw [Bounded.fit] at fits
  split at fits
  · obtain rfl := Option.some.inj fits
    rfl
  · cases fits

def Bounded.zero : Bounded := ⟨0, by norm_num⟩

/-- `Decimal::MAX`. -/
def Bounded.max : Bounded := ⟨2 ^ 96 - 1, by norm_num⟩

/-- `Decimal::MIN`. -/
def Bounded.min : Bounded := ⟨-(2 ^ 96 - 1), by norm_num⟩

/-- Operators that overflow beyond `Decimal::MAX` and are exact below it. -/
def Arithmetic.bounded : Arithmetic Bounded where
  ofNat n := (Bounded.fit n).getD Bounded.zero
  add first second := Bounded.fit (first.1 + second.1)
  sub first second := Bounded.fit (first.1 - second.1)
  mul first second := Bounded.fit (first.1 * second.1)
  div first second := if second.1 = 0 then none else Bounded.fit (first.1 / second.1)
  abs value := ⟨|value.1|, by rw [abs_abs]; exact value.2⟩
  lt first second := decide (first.1 < second.1)

theorem bounded_zero : (Arithmetic.bounded.ofNat 0).1 = 0 := by decide +kernel

theorem bounded_one : (Arithmetic.bounded.ofNat 1).1 = 1 := by decide +kernel

theorem bounded_two : (Arithmetic.bounded.ofNat 2).1 = 2 := by decide +kernel

theorem bounded_lt_zero_iff (value : Bounded) :
    Arithmetic.bounded.lt value (Arithmetic.bounded.ofNat 0) = false ↔ 0 ≤ value.1 := by
  have less : Arithmetic.bounded.lt value (Arithmetic.bounded.ofNat 0) =
    decide (value.1 < (Arithmetic.bounded.ofNat 0).1) := rfl
  rw [less, bounded_zero, decide_eq_false_iff_not, not_lt]

theorem bounded_signed : Arithmetic.bounded.Signed where
  positive value positive := by
    have above : (Arithmetic.bounded.ofNat 0).1 < value.1 := of_decide_eq_true positive
    rw [bounded_zero] at above
    exact (bounded_lt_zero_iff value).mpr above.le
  one := by
    rw [bounded_lt_zero_iff, bounded_one]
    exact zero_le_one
  half value half nonneg halved := by
    rw [bounded_lt_zero_iff] at nonneg ⊢
    have quotient : Bounded.fit (value.1 / 2) = some half := by
      have split : Arithmetic.bounded.div value (Arithmetic.bounded.ofNat 2) =
        if (Arithmetic.bounded.ofNat 2).1 = 0 then none
        else Bounded.fit (value.1 / (Arithmetic.bounded.ofNat 2).1) := rfl
      rwa [split, bounded_two, if_neg two_ne_zero] at halved
    rw [Bounded.fit_some quotient]
    exact div_nonneg nonneg two_pos.le
  difference first second nonneg nonneg' := by
    rw [bounded_lt_zero_iff] at nonneg nonneg'
    have fits : |first.1 - second.1| ≤ 2 ^ 96 - 1 := by
      have largest := (abs_le.mp first.2).2
      have largest' := (abs_le.mp second.2).2
      exact abs_le.mpr ⟨by linarith, by linarith⟩
    have split : Arithmetic.bounded.sub first second = Bounded.fit (first.1 - second.1) := rfl
    rw [split, Bounded.fit, dif_pos fits]
    rfl

/-- `Decimal::new(1, 8)`. -/
def Bounded.tolerance : Bounded := ⟨1 / 10 ^ 8, by norm_num⟩

def Bounded.one : Bounded := ⟨1, by norm_num⟩

def Bounded.three : Bounded := ⟨3, by norm_num⟩

/-- The statistics of two values, over decimals that overflow. -/
theorem volatility_returns_iff_bounded :
    let values := [Bounded.one, Bounded.three]
    (Arithmetic.bounded.decimalSqrt Bounded.tolerance Bounded.max).isSome ∧
    (BollingerBands.compute Arithmetic.bounded Bounded.tolerance values Bounded.one).isSome ∧
    (((ZScore.after 2 values).value Arithmetic.bounded Bounded.tolerance).isSome ↔
      (recent 2 values).length < 2 ∨ ∃ sum, total Arithmetic.bounded (recent 2 values) = some sum ∧
        (Arithmetic.bounded.div sum (Arithmetic.bounded.ofNat (recent 2 values).length)).isSome) ∧
    (((SpreadTracker.after 2 values).zScore Arithmetic.bounded Bounded.tolerance Bounded.one).isSome ↔
      ∀ mean stdev, SpreadTracker.mean Arithmetic.bounded ⟨2, recent 2 values⟩ = some mean →
        SpreadTracker.stdev Arithmetic.bounded Bounded.tolerance ⟨2, recent 2 values⟩ = some (some stdev) →
          Arithmetic.bounded.isZero stdev = false →
            ∃ deviation, Arithmetic.bounded.sub Bounded.one mean = some deviation ∧
              (Arithmetic.bounded.div deviation stdev).isSome) := by
  have returns := volatility_returns_iff bounded_signed Bounded.tolerance
  exact ⟨returns.1 _, returns.2.1 _ _, returns.2.2.1 _ _, returns.2.2.2 _ _ _⟩

/-- Two prices at the end of the range, and a spread at its other end behind two small ones. -/
theorem volatility_panics :
    (ZScore.after 2 [Bounded.max, Bounded.max]).value Arithmetic.bounded Bounded.tolerance = none ∧
      (SpreadTracker.after 2 [Bounded.one, Bounded.three]).zScore Arithmetic.bounded Bounded.tolerance
        Bounded.min = none := by
  decide +kernel

end Bounded

end LongTrader.Indicators
