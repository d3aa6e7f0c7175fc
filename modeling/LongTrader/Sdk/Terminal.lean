import LongTrader.Sdk.Session

/-! A local session that has reached a terminal state: when it stays there, and what later order
calls get. -/

namespace LongTrader.Sdk.Go

open Interleave

variable {ι : Type} [DecidableEq ι] {start first second config : Config machine ι Outcome}
  {history : List (Entry sig ι)}

/-- The writes that make a session out of a terminal one that is not: what `ReconcileState`
writes before and after its RPC, and a host state that is mirrored and not terminal. -/
def Op.Revives : Op → Prop
  | .setState written => IsTerminal written = false
  | .reconciled _ => True
  | _ => False

instance : DecidablePred Op.Revives := fun op =>
  match op with
  | .setState written => inferInstanceAs (Decidable (IsTerminal written = false))
  | .reconciled _ => .isTrue trivial
  | .sessionID | .state | .keptAlive _ | .checkLease _ | .timeNow | .unary _ => .isFalse id

/-- No write of the run revives the session while it is terminal. -/
def NoRevival (start : Config machine ι Outcome) (history : List (Entry sig ι))
    (config : Config machine ι Outcome) : Prop :=
  ∀ pre entry post before, history = pre ++ entry :: post → Run start pre before →
    Run before (entry :: post) config → IsTerminal before.state.state = true →
    ¬ Op.Revives entry.act.op

/-- An order call that has not begun, or was refused by the gate without an RPC. -/
def Refused (acts : List (Act sig)) (task : Task Outcome) : Prop :=
  acts = [] ∨ ∃ state : String, IsTerminal state = true ∧ acts = [⟨.state, state⟩] ∧
    task = .done (.failed (notActive state))

/-- Once the session is terminal it stays so, and every order call that begins later is refused
locally. -/
def TerminalSafe (calls : ι → Call) (start : Config machine ι Outcome)
    (history : List (Entry sig ι)) (config : Config machine ι Outcome) : Prop :=
  ∀ pre mid post first second, history = pre ++ (mid ++ post) → Run start pre first →
    Run first mid second → Run second post config → IsTerminal first.state.state = true →
    IsTerminal second.state.state = true ∧
      ∀ task, (calls task).orders = true → own task pre = [] →
        Refused (own task mid) (second.procs task)

theorem isTerminal_iff {state : String} :
    IsTerminal state = true ↔ state = StateKillSwitchTripped ∨ state = StateGracefulShutdown := by
  simp [IsTerminal, TerminalStates]

theorem not_active_of_terminal {state : String} (terminal : IsTerminal state = true) :
    state ≠ StateActive := by
  rcases isTerminal_iff.mp terminal with rfl | rfl <;> decide

theorem Session.checkLease_of_terminal {s : Session} (terminal : IsTerminal s.state = true)
    (lease now : Int) : (s.checkLease lease now).2 = s := by
  simp [Session.checkLease, terminal]

/-- An action keeps a terminal session so just if it does not revive it. -/
theorem exec_terminal {s after : Session} {op : Op} {choice : Choice} {ans : op.Ans}
    (fires : s.exec op choice = (ans, after)) (terminal : IsTerminal s.state = true) :
    IsTerminal after.state = true ↔ ¬ op.Revives := by
  obtain rfl : after = (s.exec op choice).2 := by rw [fires]
  cases op with
  | setState written =>
    show IsTerminal written = true ↔ ¬ IsTerminal written = false
    rw [Bool.not_eq_false]
  | reconciled sequence =>
    have active : ¬ IsTerminal StateActive = true := by decide
    exact iff_of_false active (fun never => never trivial)
  | checkLease lease =>
    have kept : s.exec (.checkLease lease) choice = s.checkLease lease choice.now := rfl
    rw [kept, Session.checkLease_of_terminal terminal]
    exact iff_of_true terminal id
  | sessionID | state | keptAlive | timeNow | unary => exact iff_of_true terminal id

/-- What a terminal session shows of itself. -/
theorem exec_state {s after : Session} {choice : Choice} {shown : String}
    (fires : s.exec .state choice = (shown, after)) (terminal : IsTerminal s.state = true) :
    IsTerminal shown = true := by
  have named : s.state ≠ "" := by
    rcases isTerminal_iff.mp terminal with same | same
    all_goals rw [same]; decide
  have same : (if s.state = "" then StateDisconnected else s.state) = shown :=
    (Prod.mk.inj fires).1
  rw [if_neg named] at same
  exact same ▸ terminal

/-- What holds of a run that begins in a terminal session. -/
structure StaysTerminal (history : List (Entry sig ι)) (s : Session) : Prop where
  state : IsTerminal s.state = true
  shown : ∀ task shown, Entry.of task Op.state shown ∈ history → IsTerminal shown = true

theorem NoRevival.earlier {task : ι} {op : Op} {next : op.Ans → Task Outcome} {ans : op.Ans}
    {s : Session} (quiet : NoRevival start (history ++ [Entry.of task op ans])
      ⟨s, Function.update config.procs task (next ans)⟩)
    (pending : config.procs task = .act op next) (choice : Choice)
    (fires : machine.exec op choice config.state = some (ans, s)) :
    NoRevival start history config := by
  rintro pre entry post before rfl run rest
  refine quiet pre entry (post ++ [Entry.of task op ans]) before (by simp) run ?_
  rw [← List.cons_append]
  exact .step rest pending choice fires

theorem staysTerminal_of_run (run : Run start history config) (quiet : NoRevival start history config)
    (terminal : IsTerminal start.state.state = true) : StaysTerminal history config.state := by
  induction run with
  | start => exact ⟨terminal, by simp⟩
  | @step history config task op next ans s run pending choice fires ih =>
    have before := ih (quiet.earlier pending choice fires)
    have done : config.state.exec op choice = (ans, s) := Option.some.inj fires
    have calm : ¬ Op.Revives op := quiet history (Entry.of task op ans) [] config rfl run
      (.step .start pending choice fires) before.state
    refine ⟨(exec_terminal done before.state).mpr calm, ?_⟩
    intro other shown member
    rcases List.mem_append.mp member with old | new
    · exact before.shown other shown old
    · obtain ⟨rfl, same⟩ := Entry.mk.inj (List.mem_singleton.mp new)
      obtain ⟨rfl, same⟩ := Act.mk.inj same
      obtain rfl := eq_of_heq same
      exact exec_state done before.state

/-- An order call begins at the gate, and ends there if the session is not active. -/
theorem Call.gate {call : Call} (orders : call.orders = true) :
    ∃ next : String → Task Outcome, call.task = Proc.act Op.state next ∧
      ∀ shown, shown ≠ StateActive → next shown = .done (.failed (notActive shown)) := by
  cases call with
  | createOrder spec exchange =>
    refine ⟨_, rfl, fun shown other => ?_⟩
    simp only [Proc.bind, if_neg other]
    rfl
  | createOrders specs exchange =>
    refine ⟨_, rfl, fun shown other => ?_⟩
    simp only [Proc.bind, if_neg other]
    rfl
  | keepAlive | reconcileState | strategyStatus | stopStrategy | checkLease => cases orders

theorem refused_of_path {call : Call} {acts : List (Act sig)} {last : Task Outcome}
    (orders : call.orders = true) (path : Proc.Path call.task acts last)
    (terminal : ∀ shown : String, (⟨.state, shown⟩ : Act sig) ∈ acts → IsTerminal shown = true) :
    Refused acts last := by
  obtain ⟨next, begins, ends⟩ := call.gate orders
  rw [begins] at path
  cases path with
  | stop => exact .inl rfl
  | @act _ _ _ _ shown rest =>
    have gated : IsTerminal shown = true := terminal shown (List.mem_cons_self ..)
    rw [ends shown (not_active_of_terminal gated)] at rest
    cases rest
    exact .inr ⟨shown, gated, rfl, rfl⟩

/-- A run is safe just if nothing revives the session while it is terminal. -/
theorem terminal_safe_iff (calls : ι → Call) (s : Session)
    (run : Run (calling calls s) history config) :
    TerminalSafe calls (calling calls s) history config ↔
      NoRevival (calling calls s) history config := by
  constructor
  · rintro safe pre entry post before rfl early late terminal
    obtain ⟨after, now, rest⟩ := @Run.split _ _ _ _ _ _ _ [entry] post late
    obtain ⟨kept, -⟩ := safe pre [entry] post before after rfl early now rest terminal
    obtain ⟨same, choice, begun, fires⟩ := @Run.last _ _ _ _ _ _ _ [] entry now
    obtain rfl := begun.eq_of_nil
    exact (exec_terminal (Option.some.inj fires) terminal).mp kept
  · rintro quiet pre mid post first second rfl early now late terminal
    have calm : NoRevival first mid second := by
      rintro front entry back before rfl begun rest
      refine quiet (pre ++ front) entry (back ++ post) before (by simp) (early.append begun) ?_
      rw [← List.cons_append]
      exact rest.append late
    have stays := staysTerminal_of_run now calm terminal
    refine ⟨stays.state, fun task orders unbegun => ?_⟩
    have path := now.path task
    have same := early.path task
    rw [unbegun] at same
    rw [same.eq_of_nil] at path
    exact refused_of_path orders path fun shown member => stays.shown task shown (mem_own.mp member)

/-- A session that is trading, last heard at time zero. -/
def trading : Session := ⟨[115], StateActive, 1000, 0, 0, false⟩

/-- The clock at `now`, and a host that reports the state of every session as `state`. -/
def reporting (now : Int) (state : Contract.SessionState) : Choice :=
  ⟨now, fun rpc => match rpc with
    | .strategyStatus _ => .ok ({ State := state } : Contract.StrategyStatusResponse)
    | .stopStrategy _ => .ok ({ FinalState := state } : Contract.StopStrategyResponse)
    | _ => .error (.other "unavailable")⟩

/-- A status call, the lease guard and an order. -/
def late : Fin 3 → Call
  | 0 => .strategyStatus
  | 1 => .checkLease 5
  | 2 => .createOrder marketSpec none

theorem terminal_safe_iff_order_after_trip :
    ∃ history config, Run (calling late trading) history config ∧
      IsTerminal config.state.state = true ∧ own 2 history ≠ [] ∧
      TerminalSafe late (calling late trading) history config := by
  obtain ⟨history, config, run, calm, terminal, begun⟩ :=
    @Run.exists_of_replay _ _ _ _ _ (calling late trading)
      (fun history config => (∀ entry ∈ history, ¬ Op.Revives entry.act.op) ∧
        IsTerminal config.state.state = true ∧ (own 2 history).length ≠ 0)
      (fun _ _ => inferInstance) [(1, reporting 10 4), (2, reporting 11 3)] (by decide +kernel)
  refine ⟨history, config, run, terminal, fun none => begun (by rw [none]; rfl),
    (terminal_safe_iff late trading run).mpr ?_⟩
  rintro pre entry post before rfl - - -
  exact calm entry (by simp)

/-- Whether an order is on its way to the host. -/
def submitting (task : Task Outcome) : Bool :=
  match task.pending? with
  | some (.unary (.createOrder _)) => true
  | _ => false

/-- A status reply from before the lease lapsed is mirrored after it has tripped, and the next
order passes the gate. -/
theorem late_status_revives :
    ∃ history config, Run (calling late trading) history config ∧
      ¬ TerminalSafe late (calling late trading) history config ∧
      config.state.state = StateActive ∧ submitting (config.procs 2) = true := by
  obtain ⟨history, config, run, ⟨pre, post, middle, cut, early, rest, terminal⟩, active, submits⟩ :=
    @Run.exists_passing _ _ _ _ _ (calling late trading) (fun s : Session => IsTerminal s.state = true)
      (fun config => config.state.state = StateActive ∧ submitting (config.procs 2) = true)
      inferInstance inferInstance
      [(0, reporting 1 3), (0, reporting 1 3), (1, reporting 10 4)]
      [(0, reporting 11 3), (2, reporting 12 3), (2, reporting 12 3)] (by decide +kernel)
  refine ⟨history, config, run, fun safe => ?_, active, submits⟩
  obtain ⟨stays, -⟩ := safe pre post [] middle config (by rw [List.append_nil, cut]) early rest .start
    terminal
  rw [active] at stays
  cases stays

end LongTrader.Sdk.Go
