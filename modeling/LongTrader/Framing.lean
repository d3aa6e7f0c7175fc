import Mathlib.Data.List.Basic

/-! Streams that are decoded item by item from their front. Where what is found at the
front does not depend on what follows, it does not matter in which pieces a stream
arrives. -/

namespace Framing

/-- What is found at the front of a buffer. -/
inductive Step (α β τ : Type) where
  | incomplete
  | item (value : β) (rest : List α)
  | stop (reason : τ)

/-- What is found when more bytes have arrived behind it. -/
def Step.extend {α β τ : Type} : Step α β τ → List α → Step α β τ
  | .item value rest, more => .item value (rest ++ more)
  | .incomplete, _ => .incomplete
  | .stop reason, _ => .stop reason

/-- A way to take items off the front of a buffer. -/
structure Format (α β τ : Type) where
  step : List α → Step α β τ
  shorter : ∀ {buf value rest}, step buf = .item value rest → rest.length < buf.length
  stable : ∀ {buf}, step buf ≠ .incomplete → ∀ more, step (buf ++ more) = (step buf).extend more

/-- How a stream ends: for a reason found in it, or with bytes that are no whole item. -/
inductive End (α τ : Type) where
  | stopped (reason : τ)
  | left (rest : List α)
  deriving DecidableEq

variable {α β τ : Type} (format : Format α β τ)

/-- The items of a stream, and how it ends. -/
def decode (buf : List α) : List β × End α τ :=
  match _ : format.step buf with
  | .incomplete => ([], .left buf)
  | .stop reason => ([], .stopped reason)
  | .item value rest =>
    let tail := decode rest
    (value :: tail.1, tail.2)
termination_by buf.length
decreasing_by exact format.shorter ‹_›

variable {format} {buf : List α}

theorem Format.item_append {value : β} {rest : List α} (found : format.step buf = .item value rest)
    (more : List α) : format.step (buf ++ more) = .item value (rest ++ more) := by
  rw [format.stable (by rw [found]; nofun), found]
  rfl

theorem Format.stop_append {reason : τ} (found : format.step buf = .stop reason) (more : List α) :
    format.step (buf ++ more) = .stop reason := by
  rw [format.stable (by rw [found]; nofun), found]
  rfl

theorem decode_incomplete (found : format.step buf = .incomplete) :
    decode format buf = ([], .left buf) := by
  rw [decode]
  split <;> simp_all

theorem decode_stop {reason : τ} (found : format.step buf = .stop reason) :
    decode format buf = ([], .stopped reason) := by
  rw [decode]
  split <;> simp_all

theorem decode_item {value : β} {rest : List α} (found : format.step buf = .item value rest) :
    decode format buf = (value :: (decode format rest).1, (decode format rest).2) := by
  rw [decode]
  split <;> simp_all

/-- Nothing that follows changes a stream that was stopped. -/
theorem decode_append_stopped {items : List β} {reason : τ}
    (decoded : decode format buf = (items, .stopped reason)) (more : List α) :
    decode format (buf ++ more) = (items, .stopped reason) := by
  induction buf using decode.induct format generalizing items with
  | case1 buf found =>
    rw [decode_incomplete found] at decoded
    cases decoded
  | case2 buf reason found =>
    rw [decode_stop found] at decoded
    rw [decode_stop (Format.stop_append found more), decoded]
  | case3 buf value rest found ih =>
    rw [decode_item found] at decoded
    obtain ⟨rfl, ends⟩ := Prod.mk.inj decoded
    rw [decode_item (Format.item_append found more), ih (Prod.ext rfl ends)]

/-- What follows a stream is decoded behind what was left of it. -/
theorem decode_append_left {items : List β} {rest : List α}
    (decoded : decode format buf = (items, .left rest)) (more : List α) :
    decode format (buf ++ more) =
      (items ++ (decode format (rest ++ more)).1, (decode format (rest ++ more)).2) := by
  induction buf using decode.induct format generalizing items with
  | case1 buf found =>
    rw [decode_incomplete found] at decoded
    cases decoded
    rfl
  | case2 buf reason found =>
    rw [decode_stop found] at decoded
    cases decoded
  | case3 buf value rest found ih =>
    rw [decode_item found] at decoded
    obtain ⟨rfl, ends⟩ := Prod.mk.inj decoded
    rw [decode_item (Format.item_append found more), ih (Prod.ext rfl ends)]
    rfl

end Framing
