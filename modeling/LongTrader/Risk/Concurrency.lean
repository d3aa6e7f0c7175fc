import LongTrader.Risk.Gateway
import Mathlib.Algebra.Order.BigOperators.Group.List

/-! The venue-backed limits under concurrency. The book is read before the decision and
the legs are placed after it, so the limits hold as long as no other submission lands in
between. -/

namespace LongTrader.Risk

open Interleave

section Totals

variable {symbol : String} {first second : List (String × Decimal)}

end Totals

section Exposures

variable {ops : DecimalOps}

end Exposures

/-- The leg that comes to rest on an exchange with an action, and the id it gets. -/
def rested (exchange : ExchangeId) : Act sig → Option (OrderRequest × String)
  | ⟨.place target leg, some id⟩ => if target = exchange then some (leg, id) else none
  | _ => none

/-- The orders that come to rest on an exchange with some actions. -/
def landed (exchange : ExchangeId) (acts : List (Act sig)) : List Order :=
  (acts.filterMap (rested exchange)).map fun leg => restingFor leg.1 leg.2

/-- The leg that is handed to the venue by an action. -/
def placedLeg : Act sig → Option OrderRequest
  | ⟨.place _ leg, _⟩ => some leg
  | _ => none

section Landed

variable {exchange : ExchangeId}

end Landed

/-- The legs of a submission. -/
def Call.legs : Call → List OrderRequest
  | .createOrder request => request.order.toList
  | .batchCreateOrders request => request.orders
  | _ => []

/-- The actions of an admission against the book. -/
def admission (exchange : ExchangeId) (orders : List Order) (intents : List OrderIntent)
    (resting : List RestingOrder) (now : Nat) : List (Act sig) :=
  [⟨Op.fetchOpenOrders exchange, .ok orders⟩, ⟨Op.instantNow, now⟩,
    ⟨Op.admitIntents intents (some resting) now, some (.ok ())⟩]

/-- A leg is placed only after the submission has measured all its legs against the
book it read first, and the legs are placed in their order. -/
def Measured (ops : DecimalOps) (limits : RiskLimits) (call : Call) (past : List (Act sig))
    (act : Act sig) : Prop :=
  ∀ exchange leg, act.op = .place exchange leg → limits.needsBook = true →
    ∃ orders resting intents now later,
      past = admission exchange orders intents resting now ++ later ∧
      collect (restingOf ops) orders = .ok resting ∧
      collect (intentOf ops) call.legs = .ok intents ∧
      (later ++ [act]).filterMap placedLeg <+: call.legs

/-- The actions that place nothing. -/
def unplaced : Set Op := {op | ∀ exchange leg, op ≠ .place exchange leg}

section Programs

variable {ops : DecimalOps} {limits : RiskLimits} {call : Call}

theorem unplaced_measured {past : List (Act sig)} {act : Act sig} (free : act.op ∈ unplaced) :
    Measured ops limits call past act :=
  fun exchange leg same => absurd same (free exchange leg)

theorem unplaced_justifies {α : Type} {task : Task α} {past : List (Act sig)}
    (within : task.Within unplaced) : task.Justifies (Measured ops limits call) past :=
  within.justifies fun _ _ => unplaced_measured

theorem gatewayAdmit_within (intents : List OrderIntent) (exchange : ExchangeId) :
    (gatewayAdmit ops limits intents exchange).Within unplaced := by
  have reads : (readBook ops limits exchange).Within unplaced := by
    unfold readBook
    split
    · refine .act (by simp [unplaced]) fun answer => ?_
      cases answer
      all_goals trivial
    · trivial
  unfold gatewayAdmit
  refine reads.bind fun book => ?_
  split
  · trivial
  · refine .act (by simp [unplaced]) fun now => ?_
    refine .act (by simp [unplaced]) fun answer => ?_
    split
    all_goals trivial

/-- An admission that needed the book read it and was decided against it. -/
theorem gatewayAdmit_completes {intents : List OrderIntent} {exchange : ExchangeId}
    {acts : List (Act sig)} (needed : limits.needsBook = true)
    (finishes : (gatewayAdmit ops limits intents exchange).Completes acts (some (.ok ()))) :
    ∃ orders resting now, acts = admission exchange orders intents resting now ∧
      collect (restingOf ops) orders = .ok resting := by
  unfold gatewayAdmit readBook at finishes
  simp only [needed, if_true] at finishes
  obtain ⟨first, rest, book, rfl, reads, decides⟩ := Proc.completes_bind.mp finishes
  obtain ⟨answer, tail, rfl, answered⟩ := Proc.completes_perform_bind.mp reads
  cases answer with
  | error error =>
    obtain ⟨rfl, rfl⟩ := answered
    cases decides.2
  | ok orders =>
    obtain ⟨rfl, rfl⟩ := answered
    cases read : collect (restingOf ops) orders with
    | error error =>
      rw [read] at decides
      cases decides.2
    | ok resting =>
      rw [read] at decides
      obtain ⟨now, tail, rfl, asks⟩ := Proc.completes_perform_bind.mp decides
      obtain ⟨decision, tail, rfl, ends⟩ := Proc.completes_perform_bind.mp asks
      match decision with
      | none => cases ends.2
      | some (.error violation) => cases ends.2
      | some (.ok ()) =>
        obtain ⟨rfl, _⟩ := ends
        exact ⟨orders, resting, now, rfl, read⟩

/-- The legs still to be placed complete those placed so far. -/
theorem placeLegs_justifies {exchange : ExchangeId} {orders : List Order}
    {resting : List RestingOrder} {intents : List OrderIntent} {now : Nat}
    {later : List (Act sig)} {legs : List OrderRequest}
    (read : collect (restingOf ops) orders = .ok resting)
    (asked : collect (intentOf ops) call.legs = .ok intents)
    (split : later.filterMap placedLeg ++ legs = call.legs) :
    (placeLegs exchange legs).Justifies (Measured ops limits call)
      (admission exchange orders intents resting now ++ later) := by
  induction legs generalizing later with
  | nil => trivial
  | cons leg rest ih =>
    refine Proc.Justifies.act ?_ ?_
    · intro answer target placed same _
      obtain ⟨rfl, rfl⟩ := Op.place.inj same
      refine ⟨orders, resting, intents, now, later, rfl, read, asked, rest, ?_⟩
      rw [← split]
      simp [placedLeg]
    · intro answer
      have continues : (later ++ [(⟨Op.place exchange leg, answer⟩ : Act sig)]).filterMap placedLeg ++
          rest = call.legs := by
        rw [← split]
        simp [placedLeg]
      rw [List.append_assoc]
      exact ih continues

/-- The gate, the legs and the reply of one submission. -/
theorem submission_justifies {α : Type} {exchange : ExchangeId} {intents : List OrderIntent}
    {legs : List OrderRequest} {f : Option (Except PortError Unit) → Task α}
    (needed : limits.needsBook = true) (asked : collect (intentOf ops) legs = .ok intents)
    (same : call.legs = legs)
    (refused : ∀ answer past, answer ≠ some (.ok ()) →
      (f answer).Justifies (Measured ops limits call) past)
    (placed : ∀ past, (placeLegs exchange legs).Justifies (Measured ops limits call) past →
      (f (some (.ok ()))).Justifies (Measured ops limits call) past) :
    (gatewayAdmit ops limits intents exchange >>= f).Justifies (Measured ops limits call) [] := by
  refine (unplaced_justifies (gatewayAdmit_within intents exchange)).bind ?_
  intro acts answer finishes
  by_cases admitted : answer = some (.ok ())
  · subst admitted
    obtain ⟨orders, resting, now, rfl, read⟩ := gatewayAdmit_completes needed finishes
    apply placed
    have starts := @placeLegs_justifies ops limits call exchange orders resting intents now []
      legs read (same ▸ asked) (by simp [same])
    simpa using starts
  · exact refused answer _ admitted

theorem Call.justifies (call : Call) :
    (call.task ops limits).Justifies (Measured ops limits call) [] := by
  cases needed : limits.needsBook with
  | false =>
    refine (Proc.within_univ _).justifies ?_
    intro past act _ exchange leg _ book
    rw [needed] at book
    cases book
  | true =>
    have reply : ∀ {past : List (Act sig)} {op : Op}, op ∈ unplaced →
        (perform op).Justifies (Measured ops limits call) past :=
      fun free => unplaced_justifies (Proc.within_perform.mpr free)
    cases call with
    | createOrder request =>
      refine Proc.Justifies.map ?_ _
      unfold Risk.createOrder
      split
      · trivial
      · rename_i order present
        split
        · trivial
        · rename_i intent decoded
          have asked : collect (intentOf ops) [order] = .ok [intent] := by simp [collect, decoded]
          apply submission_justifies needed asked (by simp [Call.legs, present])
          · intro answer past failed
            split
            · trivial
            · trivial
            · exact absurd rfl failed
          · intro past places
            refine places.bind fun _ _ _ => ?_
            exact (reply (by simp [unplaced])).bind fun _ _ _ => trivial
    | batchCreateOrders request =>
      refine Proc.Justifies.map ?_ _
      unfold Risk.batchCreateOrders
      split
      · trivial
      · rename_i intents decoded
        apply submission_justifies needed decoded rfl
        · intro answer past failed
          split
          · trivial
          · trivial
          · exact absurd rfl failed
        · intro past places
          refine places.bind fun _ _ _ => ?_
          exact (reply (by simp [unplaced])).bind fun _ _ _ => trivial
    | venueMove exchange orderId left => exact (reply (by simp [unplaced])).map _
    | timePasses elapsed => exact (reply (by simp [unplaced])).map _

end Programs

/-- Whether an action reads the book of an exchange. -/
def reads (exchange : ExchangeId) : Act sig → Bool
  | ⟨.fetchOpenOrders target, .ok _⟩ => target = exchange
  | _ => false

/-- From the moment a submission reads the book of an exchange until its last leg comes
to rest there, nothing of another submission comes to rest there. -/
def Undivided {ι : Type} (exchange : ExchangeId) (history : List (Entry sig ι)) : Prop :=
  ∀ read intruder landing, [read, intruder, landing].Sublist history →
    reads exchange read.act = true → landing.task = read.task → intruder.task ≠ read.task →
    (rested exchange landing.act).isSome = true → rested exchange intruder.act = none

/-- No order of the exchange is filled or cancelled. -/
def Still {ι : Type} (exchange : ExchangeId) (history : List (Entry sig ι)) : Prop :=
  ∀ entry ∈ history, ∀ orderId left, entry.act.op ≠ .venueMove exchange orderId left

theorem moveOrder_length (orderId : String) (left : Option String) (book : List Order) :
    (moveOrder orderId left book).length ≤ book.length := by
  cases left with
  | none => exact List.length_filter_le _ _
  | some text => simp [moveOrder]

section Steps

variable {ops : DecimalOps} {limits : RiskLimits} {choice : Choice} {desk after : Desk}

/-- Only a leg and a move of the venue change a book. -/
theorem exec_quiet {op : Op} {ans : op.Ans} (free : op ∈ unplaced)
    (unmoved : ∀ exchange orderId left, op ≠ .venueMove exchange orderId left)
    (fires : desk.exec ops limits op choice = some (ans, after)) : after.book = desk.book := by
  cases op with
  | place target leg => exact absurd rfl (free target leg)
  | venueMove target orderId left => exact absurd rfl (unmoved target orderId left)
  | instantNow =>
    cases fires
    rfl
  | advanceClock elapsed =>
    cases fires
    rfl
  | fetchOpenOrders target =>
    simp only [Desk.exec] at fires
    split at fires
    · cases fires
      rfl
    · split at fires <;> cases fires
      rfl
    · cases fires
  | admitIntents intents resting now =>
    simp only [Desk.exec] at fires
    split at fires <;> cases fires <;> rfl
  | createReply request =>
    simp only [Desk.exec] at fires
    split at fires <;> cases fires
    rfl
  | batchReply request =>
    simp only [Desk.exec] at fires
    split at fires <;> cases fires
    rfl

theorem exec_place (exchange : ExchangeId) {target : ExchangeId} {leg : OrderRequest} {ans : Option String}
    (fires : desk.exec ops limits (.place target leg) choice = some (ans, after)) :
    after.book exchange = desk.book exchange ++ landed exchange [⟨.place target leg, ans⟩] := by
  simp only [Desk.exec] at fires
  split at fires
  · cases fires
    simp [landed, rested]
  · rename_i id
    cases fires
    by_cases here : target = exchange
    · subst here
      simp [landed, rested, Desk.setBook]
    · simp [landed, rested, Desk.setBook, here, Function.update_of_ne (Ne.symm here)]
  · cases fires

theorem exec_venueMove (exchange : ExchangeId) {target : ExchangeId} {orderId : String} {left : Option String}
    {ans : Unit} (fires : desk.exec ops limits (.venueMove target orderId left) choice = some (ans, after)) :
    after.book exchange = if target = exchange then moveOrder orderId left (desk.book exchange)
      else desk.book exchange := by
  cases fires
  by_cases here : target = exchange
  · subst here
    simp [Desk.setBook]
  · simp [Desk.setBook, here, Function.update_of_ne (Ne.symm here)]

/-- What an action does to the book of an exchange: a leg comes to rest, an order is
moved by the venue, or nothing. -/
theorem exec_book (exchange : ExchangeId) {op : Op} {ans : op.Ans}
    (fires : desk.exec ops limits op choice = some (ans, after)) :
    (∃ orderId left, op = .venueMove exchange orderId left ∧ rested exchange ⟨op, ans⟩ = none ∧
        after.book exchange = moveOrder orderId left (desk.book exchange)) ∨
      after.book exchange = desk.book exchange ++ landed exchange [⟨op, ans⟩] := by
  have quiet : rested exchange ⟨op, ans⟩ = none → after.book exchange = desk.book exchange →
      after.book exchange = desk.book exchange ++ landed exchange [⟨op, ans⟩] := by
    intro none same
    simp [landed, none, same]
  cases op with
  | place target leg => exact .inr (exec_place exchange fires)
  | venueMove target orderId left =>
    have moved := exec_venueMove exchange fires
    by_cases here : target = exchange
    · rw [if_pos here] at moved
      exact .inl ⟨orderId, left, by rw [here], rfl, moved⟩
    · rw [if_neg here] at moved
      exact .inr (quiet rfl moved)
  | _ => exact .inr (quiet rfl (congrFun (exec_quiet (by simp [unplaced]) (by simp) fires) exchange))

end Steps

section Executions

variable {ι : Type} [DecidableEq ι] {ops : DecimalOps} {limits : RiskLimits}
  {exchange : ExchangeId} {task : ι}
  {mid : List (Entry sig ι)} {ok : (machine ops limits).State → Entry sig ι → Prop}
  {before after : (machine ops limits).State}

theorem landed_append (first second : List (Act sig)) :
    landed exchange (first ++ second) = landed exchange first ++ landed exchange second := by
  simp [landed]

theorem landed_of_rested {act : Act sig} (nothing : rested exchange act = none) :
    landed exchange [act] = [] := by
  simp [landed, nothing]

/-- While only one submission places orders, the book grows by no more than that
submission's landings, and by exactly them if the venue moves nothing. -/
theorem book_grows (execution : Execution (machine ops limits) ok before mid after)
    (alone : ∀ entry ∈ mid, entry.task ≠ task → rested exchange entry.act = none) :
    (Desk.book after exchange).length ≤
        (Desk.book before exchange).length + (landed exchange (own task mid)).length ∧
      (Still exchange mid →
        Desk.book after exchange = Desk.book before exchange ++ landed exchange (own task mid)) := by
  induction execution with
  | start => exact ⟨by simp, fun _ => by simp [landed]⟩
  | @step mid actor op ans last after earlier choice fires meets ih =>
    obtain ⟨size, exactly⟩ := ih fun entry member => alone entry (by simp [member])
    have own_last : landed exchange (own task (mid ++ [Entry.of actor op ans])) =
        landed exchange (own task mid) ++ landed exchange [⟨op, ans⟩] := by
      rw [own_append, landed_append]
      by_cases mine : actor = task
      · subst mine
        rw [own_singleton_self]
      · have nothing : rested exchange ⟨op, ans⟩ = none :=
          alone (Entry.of actor op ans) (by simp) mine
        rw [own_singleton_of_ne mine, landed_of_rested nothing]
        rfl
    rw [own_last, List.length_append]
    rcases exec_book exchange fires with ⟨orderId, left, rfl, nothing, moved⟩ | grown
    · constructor
      · have shorter := moveOrder_length orderId left (Desk.book last exchange)
        rw [moved]
        omega
      · intro still
        have last_entry := still (Entry.of actor (Op.venueMove exchange orderId left) ans) (by simp)
        exact absurd rfl (last_entry orderId left)
    · constructor
      · rw [grown, List.length_append]
        omega
      · intro still
        rw [grown, exactly fun entry member => still entry (by simp [member]), List.append_assoc]

end Executions

theorem Undivided.before {ι : Type} {exchange : ExchangeId} {pre post : List (Entry sig ι)}
    (undivided : Undivided exchange (pre ++ post)) : Undivided exchange pre := by
  intro read intruder landing pattern
  exact undivided read intruder landing (pattern.trans (List.sublist_append_left pre post))

section Pools

variable {ι : Type} [DecidableEq ι] {ops : DecimalOps} {limits : RiskLimits} {desk : Desk}
  {calls : ι → Call} {history : List (Entry sig ι)} {exchange : ExchangeId}

theorem pool_execution {config : Config (machine ops limits) ι Outcome}
    (run : Run (pool ops limits desk calls) history config) :
    Execution (machine ops limits) (fun _ entry => entry.act.op ∈ Set.univ) desk history config.state :=
  run.execution fun _ => Proc.within_univ _

end Pools

end LongTrader.Risk
