import Mathlib.Data.List.Basic

/-! Services that answer requests and keep a state, and relays that stand in front of them. -/

namespace Service

variable {Request Reply Error State Worker Gateway Other : Type}

/-- A service answers a request in a state, and leaves a state. -/
abbrev Port (Request Reply Error State : Type) := Request → State → Except Error Reply × State

/-- The answers to requests served one after the other. -/
def run (port : Port Request Reply Error State) :
    List Request → State → List (Except Error Reply) × State
  | [], state => ([], state)
  | request :: rest, state =>
    let served := port request state
    let later := run port rest served.2
    (served.1 :: later.1, later.2)

/-- What happens to a service: a request of the client, or something else that changes its state. -/
inductive Event (Request Other : Type) where
  | call (request : Request)
  | other (other : Other)

/-- The requests with what the client was told, and the state that the events leave. -/
def history (port : Port Request Reply Error State) (others : Other → State → State) :
    List (Event Request Other) → State → List (Request × Option Reply) × State
  | [], state => ([], state)
  | .other other :: rest, state => history port others rest (others other state)
  | .call request :: rest, state =>
    let served := port request state
    let later := history port others rest served.2
    ((request, served.1.toOption) :: later.1, later.2)

/-- What a client may ask and what a service owes it. -/
structure Terms (Request Reply State : Type) where
  asks : Request → Prop
  proper : Request → Prop
  keeps : State → Prop
  answers : Request → Reply → Prop

/-- A service that keeps to the terms. What is not proper it refuses, and refusing leaves no trace. -/
structure Honours (terms : Terms Request Reply State) (port : Port Request Reply Error State) : Prop where
  keeps : ∀ request state, terms.asks request → terms.keeps state → terms.keeps (port request state).2
  answers : ∀ request state reply, terms.asks request → terms.keeps state →
    (port request state).1 = .ok reply → terms.answers request reply
  refuses : ∀ request state, terms.asks request → terms.keeps state → ¬ terms.proper request →
    (port request state).1.toOption = none ∧ (port request state).2 = state

/-- What a client learns of an answer, but for the text of an error, and what it leaves. -/
def outcome (served : Except Error Reply × State) : Option Reply × State := (served.1.toOption, served.2)

/-- Two services that only the texts of their errors tell apart. -/
def Agree (terms : Terms Request Reply State) (front back : Port Request Reply Error State) : Prop :=
  ∀ request state, terms.asks request → terms.keeps state →
    outcome (front request state) = outcome (back request state)

variable {terms : Terms Request Reply State} {front middle back : Port Request Reply Error State}

theorem Agree.refl (port : Port Request Reply Error State) : Agree terms port port :=
  fun _ _ _ _ => rfl

theorem Agree.trans (first : Agree terms front middle) (second : Agree terms middle back) :
    Agree terms front back :=
  fun request state asked kept => (first request state asked kept).trans (second request state asked kept)

theorem Agree.reply (agree : Agree terms front back) (request : Request) {state : State}
    (asked : terms.asks request) (kept : terms.keeps state) :
    (front request state).1.toOption = (back request state).1.toOption :=
  (Prod.mk.inj (agree request state asked kept)).1

theorem Agree.state (agree : Agree terms front back) (request : Request) {state : State}
    (asked : terms.asks request) (kept : terms.keeps state) :
    (front request state).2 = (back request state).2 :=
  (Prod.mk.inj (agree request state asked kept)).2

theorem toOption_eq_some {answer : Except Error Reply} {reply : Reply} :
    answer.toOption = some reply ↔ answer = .ok reply := by
  cases answer with
  | error error => constructor <;> intro same <;> cases same
  | ok other => exact ⟨fun same => congrArg _ (Option.some.inj same), fun same => by rw [same]; rfl⟩

/-- Answers that agree as replies of a service agree as what they were before. -/
theorem toOption_of_map {Answer : Type} {embed : Answer → Reply} (injective : Function.Injective embed)
    {answer other : Except Error Answer}
    (same : (answer.map embed).toOption = (other.map embed).toOption) :
    answer.toOption = other.toOption := by
  cases answer with
  | error error =>
    cases other with
    | error other => rfl
    | ok other => cases same
  | ok answer =>
    cases other with
    | error other => cases same
    | ok other => exact congrArg some (injective (Option.some.inj same))

/-- A service that agrees with one that keeps to the terms keeps to them too. -/
theorem Honours.of_agree (honours : Honours terms back) (agree : Agree terms front back) :
    Honours terms front where
  keeps request state asked kept := by
    rw [agree.state request asked kept]
    exact honours.keeps request state asked kept
  answers request state reply asked kept answered := by
    have same := agree.reply request asked kept
    rw [answered] at same
    exact honours.answers request state reply asked kept (toOption_eq_some.mp same.symm)
  refuses request state asked kept improper := by
    obtain ⟨refused, unchanged⟩ := honours.refuses request state asked kept improper
    exact ⟨(agree.reply request asked kept).trans refused, (agree.state request asked kept).trans unchanged⟩

/-- A relay that agrees with whatever honest service it stands in front of may be repeated. -/
theorem agree_foldr (serve : Gateway → Port Request Reply Error State)
    (relay : Worker → Gateway → Gateway)
    (transparent : ∀ worker gateway, Honours terms (serve gateway) →
      Agree terms (serve (relay worker gateway)) (serve gateway))
    {venue : Gateway} (honours : Honours terms (serve venue)) (workers : List Worker) :
    Agree terms (serve (workers.foldr relay venue)) (serve venue) := by
  induction workers with
  | nil => exact Agree.refl _
  | cons worker rest ih => exact (transparent worker _ (honours.of_agree ih)).trans ih

/-- Services that agree go on agreeing over any run of requests. -/
theorem Agree.run (agree : Agree terms front back) (honours : Honours terms back)
    {requests : List Request} (asked : ∀ request ∈ requests, terms.asks request)
    {state : State} (kept : terms.keeps state) :
    (run front requests state).1.map Except.toOption = (run back requests state).1.map Except.toOption ∧
      (Service.run front requests state).2 = (Service.run back requests state).2 := by
  induction requests generalizing state with
  | nil => exact ⟨rfl, rfl⟩
  | cons request rest ih =>
    obtain ⟨now, later⟩ := List.forall_mem_cons.mp asked
    obtain ⟨replies, final⟩ := ih later (honours.keeps request state now kept)
    simp only [Service.run, List.map_cons, agree.reply request now kept, agree.state request now kept,
      replies, final, and_self]

/-- A relay whose exchanges may fail: what it tells, it tells as it sees it, and where an exchange fails it
tells nothing of a request that was served or was not. -/
def Relays (terms : Terms Request Reply State) (fails : Prop) (see : Reply → Reply)
    (front back : Port Request Reply Error State) : Prop :=
  ∀ request state, terms.asks request → terms.keeps state →
    outcome (front request state) = ((back request state).1.toOption.map see, (back request state).2) ∨
    fails ∧ (front request state).1.toOption = none ∧
      ((front request state).2 = state ∨ (front request state).2 = (back request state).2)

theorem Relays.trans {near far : Prop} {see saw : Reply → Reply} (first : Relays terms near see front middle)
    (second : Relays terms far saw middle back) : Relays terms (near ∨ far) (see ∘ saw) front back := by
  intro request state asked kept
  rcases second request state asked kept with told | ⟨fails, silent, served⟩
  · obtain ⟨answer, after⟩ := Prod.mk.inj told
    rcases first request state asked kept with relayed | ⟨fails, silent, served⟩
    · left
      rw [relayed, answer, after, Option.map_map]
    · rw [after] at served
      exact .inr ⟨.inl fails, silent, served⟩
  · right
    rcases first request state asked kept with relayed | ⟨_, quiet, reached⟩
    · obtain ⟨answer, after⟩ := Prod.mk.inj relayed
      rw [silent] at answer
      rw [after]
      exact ⟨.inr fails, answer, served⟩
    · refine ⟨.inr fails, quiet, ?_⟩
      rcases reached with same | reached
      · exact .inl same
      · rw [reached]
        exact served

/-- A relay keeps to the terms of the service behind it, whatever fails. -/
theorem Honours.of_relays {fails : Prop} {see : Reply → Reply} (honours : Honours terms back)
    (relays : Relays terms fails see front back)
    (seen : ∀ request reply, terms.answers request reply → terms.answers request (see reply)) :
    Honours terms front where
  keeps request state asked kept := by
    have still := honours.keeps request state asked kept
    rcases relays request state asked kept with told | ⟨_, _, same | served⟩
    · rw [show (front request state).2 = _ from (Prod.mk.inj told).2]
      exact still
    · rwa [same]
    · rwa [served]
  answers request state reply asked kept answered := by
    rcases relays request state asked kept with told | ⟨_, silent, _⟩
    · have answer := (Prod.mk.inj told).1
      rw [answered] at answer
      obtain ⟨before, was, rfl⟩ := Option.map_eq_some_iff.mp answer.symm
      exact seen request before (honours.answers request state before asked kept (toOption_eq_some.mp was))
    · rw [answered] at silent
      cases silent
  refuses request state asked kept improper := by
    obtain ⟨refused, unchanged⟩ := honours.refuses request state asked kept improper
    rcases relays request state asked kept with told | ⟨_, silent, same | served⟩
    · obtain ⟨answer, after⟩ := Prod.mk.inj told
      rw [refused] at answer
      exact ⟨answer, after.trans unchanged⟩
    · exact ⟨silent, same⟩
    · exact ⟨silent, served.trans unchanged⟩

/-- What each event keeps, whatever the client was told so far, holds after any events; a fact may speak
of how many events are still to come. -/
theorem history_rule (port : Port Request Reply Error State) (others : Other → State → State)
    (asks : Request → Prop) (holds : Nat → List (Request × Option Reply) → State → Prop)
    (served : ∀ left log request state, asks request → holds (left + 1) log state →
      holds left (log ++ [(request, (port request state).1.toOption)]) (port request state).2)
    (passed : ∀ left log other state, holds (left + 1) log state → holds left log (others other state))
    {events : List (Event Request Other)} (asked : ∀ request, .call request ∈ events → asks request)
    {log : List (Request × Option Reply)} {state : State} (start : holds events.length log state) :
    holds 0 (log ++ (history port others events state).1) (history port others events state).2 := by
  induction events generalizing log state with
  | nil => rwa [history, List.append_nil]
  | cons event rest ih =>
    have later : ∀ request, .call request ∈ rest → asks request :=
      fun request member => asked request (List.mem_cons_of_mem _ member)
    cases event with
    | other other => exact ih later (passed rest.length log other state start)
    | call request =>
      have after := ih later (served rest.length log request state (asked request List.mem_cons_self) start)
      rwa [List.append_assoc] at after

/-- The rule for a service that agrees with the one that is known. -/
theorem Agree.history (agree : Agree terms front back) (honours : Honours terms back)
    (others : Other → State → State) (holds : Nat → List (Request × Option Reply) → State → Prop)
    (served : ∀ left log request state, terms.asks request → terms.keeps state → holds (left + 1) log state →
      holds left (log ++ [(request, (back request state).1.toOption)]) (back request state).2)
    (passed : ∀ left log other state, terms.keeps state → holds (left + 1) log state →
      terms.keeps (others other state) ∧ holds left log (others other state))
    {events : List (Event Request Other)} (asked : ∀ request, .call request ∈ events → terms.asks request)
    {log : List (Request × Option Reply)} {state : State} (kept : terms.keeps state)
    (start : holds events.length log state) :
    terms.keeps (Service.history front others events state).2 ∧
      holds 0 (log ++ (Service.history front others events state).1)
        (Service.history front others events state).2 := by
  refine history_rule front others terms.asks (fun left log state => terms.keeps state ∧ holds left log state)
    ?_ ?_ asked ⟨kept, start⟩
  · intro left log request state asks both
    rw [agree.reply request asks both.1, agree.state request asks both.1]
    exact ⟨honours.keeps request state asks both.1, served left log request state asks both.1 both.2⟩
  · intro left log other state both
    exact passed left log other state both.1 both.2

/-- Only what was requested is in the history. -/
theorem mem_history {port : Port Request Reply Error State} {others : Other → State → State}
    {events : List (Event Request Other)} {state : State} {request : Request} {reply : Option Reply}
    (member : (request, reply) ∈ (Service.history port others events state).1) : .call request ∈ events := by
  induction events generalizing state with
  | nil => cases member
  | cons event rest ih =>
    cases event with
    | other other => exact List.mem_cons_of_mem _ (ih member)
    | call asked =>
      rcases List.mem_cons.mp member with first | later
      · rw [(Prod.mk.inj first).1]
        exact List.mem_cons_self
      · exact List.mem_cons_of_mem _ (ih later)

end Service
