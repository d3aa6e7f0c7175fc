import LongTrader.Interleave.History

/-! The policy channel of a market stream: a buffer to which senders apply an overflow
policy, a forward loop that drains it, and the bounded channel of the consumer. -/

namespace LongTrader.Overflow

open Interleave

/-- `ports::OverflowPolicy`. -/
inductive OverflowPolicy where
  | block
  | dropOldest
  | coalesce
  deriving DecidableEq, Repr

/-- What a channel is made with. -/
structure Settings (K T : Type) where
  cap : Nat
  policy : OverflowPolicy
  keyOf : T → K
  debugAssertions : Bool
  positive : 0 < cap

/-- `overflow::policy_channel`. -/
def policyChannel {K T : Type} (cap : Nat) (policy : OverflowPolicy) (keyOf : T → K)
    (debugAssertions : Bool) : Settings K T :=
  ⟨max cap 1, policy, keyOf, debugAssertions, by omega⟩

/-- The part of `PipeState` that changes, with the queue of the bounded channel. -/
structure Pipe (K T : Type) where
  buf : List (K × T)
  notify : Bool
  sourceClosed : Bool
  downstream : List T
  receiverDropped : Bool
  deriving DecidableEq, Repr

def Pipe.new {K T : Type} : Pipe K T := ⟨[], false, false, [], false⟩

/-- What became of an item under the lock of the buffer. -/
inductive Pushed (K T : Type) where
  | panicked
  | kept (evicted : List (K × T))
  deriving DecidableEq, Repr

/-- The atomic actions on a channel. A critical section of the buffer's lock is one. -/
inductive Op (T : Type) where
  | isClosed
  | push (item : T)
  | notifyOne
  | send (item : T)
  | loadSourceClosed
  | storeSourceClosed
  | take
  | notified
  | receive
  | dropReceiver
  deriving DecidableEq, Repr

abbrev Op.Ans (K : Type) {T : Type} : Op T → Type
  | .isClosed => Bool
  | .push _ => Pushed K T
  | .notifyOne => Unit
  | .send _ => Bool
  | .loadSourceClosed => Bool
  | .storeSourceClosed => Unit
  | .take => List (K × T)
  | .notified => Unit
  | .receive => T
  | .dropReceiver => Unit

abbrev sig (K T : Type) : Signature := ⟨Op T, Op.Ans K⟩

section Actions

variable {K T : Type} [DecidableEq K]

/-- Put an item into the first slot of its key. -/
def replace (key : K) (item : T) : List (K × T) → List (K × T)
  | [] => []
  | slot :: rest => if slot.1 = key then (slot.1, item) :: rest else slot :: replace key item rest

/-- `while buf.len() > cap { buf.pop_front(); }`: what is popped and what stays. -/
def popExcess (cap : Nat) (buf : List (K × T)) : List (K × T) × List (K × T) :=
  (buf.take (buf.length - cap), buf.drop (buf.length - cap))

/-- What a send does to the buffer under its policy: what is evicted and what stays. -/
def pushItem (settings : Settings K T) (item : T) (buf : List (K × T)) :
    List (K × T) × List (K × T) :=
  let key := settings.keyOf item
  if settings.policy = .coalesce then
    if buf.any (fun slot => slot.1 = key) then ([], replace key item buf)
    else popExcess settings.cap (buf ++ [(key, item)])
  else popExcess settings.cap (buf ++ [(key, item)])

/-- One action on the channel; `none` while it has to wait. -/
def Pipe.exec (settings : Settings K T) (pipe : Pipe K T) : (op : Op T) → Option (op.Ans K × Pipe K T)
  | .isClosed => some (pipe.receiverDropped, pipe)
  | .push item =>
    -- `debug_assert!(self.state.cap <= 1024, ..)`
    if settings.debugAssertions && 1024 < settings.cap then some (.panicked, pipe)
    else
      let pushed := pushItem settings item pipe.buf
      some (.kept pushed.1, { pipe with buf := pushed.2 })
  | .notifyOne => some ((), { pipe with notify := true })
  -- `mpsc::Sender::send` waits for room and fails only without a receiver.
  | .send item =>
    if pipe.receiverDropped then some (false, pipe)
    else if pipe.downstream.length < settings.cap then
      some (true, { pipe with downstream := pipe.downstream ++ [item] })
    else none
  | .loadSourceClosed => some (pipe.sourceClosed, pipe)
  | .storeSourceClosed => some ((), { pipe with sourceClosed := true })
  | .take => some (pipe.buf, { pipe with buf := [] })
  | .notified => if pipe.notify then some ((), { pipe with notify := false }) else none
  | .receive => match pipe.downstream with
    | [] => none
    | item :: rest => some (item, { pipe with downstream := rest })
  | .dropReceiver => some ((), { pipe with receiverDropped := true, downstream := [] })

abbrev machine (settings : Settings K T) : Machine (sig K T) :=
  ⟨Pipe K T, Unit, fun op _ pipe => pipe.exec settings op⟩

end Actions

section Programs

variable {K T : Type}

/-- How a call on the channel ends. -/
inductive Outcome (T : Type) where
  | sent (accepted : Bool)
  | panicked
  | closed
  | received (item : T)
  | dropped
  | forwarded
  | forwarding
  deriving DecidableEq, Repr

/-- The task that performs one action on the channel. -/
abbrev perform (op : Op T) : Proc (sig K T) (op.Ans K) := @Proc.perform (sig K T) op

/-- `PolicySender::send`. -/
def send (settings : Settings K T) (item : T) : Proc (sig K T) (Outcome T) :=
  match settings.policy with
  | .block => do
    let accepted ← perform (.send item)
    return .sent accepted
  | .dropOldest | .coalesce => do
    if ← perform .isClosed then
      return .sent false
    match ← perform (.push item) with
    | .panicked => return .panicked
    | .kept _ => do
      perform .notifyOne
      return .sent true

/-- `PolicySender::close`. -/
def close : Proc (sig K T) (Outcome T) := do
  perform .storeSourceClosed
  perform .notifyOne
  return .closed

/-- `Receiver::recv` while there is a sender. -/
def recv : Proc (sig K T) (Outcome T) := do
  let item ← perform .receive
  return .received item

/-- Send items downstream one by one; whether all were accepted. -/
def sendAll : List (K × T) → Proc (sig K T) Bool
  | [] => return true
  | slot :: rest => do
    if ← perform (.send slot.2) then sendAll rest else return false

/-- `PipeState::forward_loop`, for at most the given number of rounds. -/
def forwardLoop : Nat → Proc (sig K T) (Outcome T)
  | 0 => return .forwarding
  | rounds + 1 => do
    if ← perform .loadSourceClosed then
      let drained ← perform .take
      let _ ← sendAll drained
      return .forwarded
    let items ← perform .take
    if items.isEmpty then
      perform .notified
      forwardLoop rounds
    else if ← sendAll items then forwardLoop rounds
    else return .forwarded

/-- The calls on the two ends of a channel. -/
inductive Call (T : Type) where
  | send (item : T)
  | close
  | recv
  | dropReceiver
  deriving DecidableEq, Repr

def Call.program (settings : Settings K T) : Call T → Proc (sig K T) (Outcome T)
  | .send item => Overflow.send settings item
  | .close => Overflow.close
  | .recv => Overflow.recv
  | .dropReceiver => do
    perform .dropReceiver
    return .dropped

/-- The tasks on a channel: its forward loop, and each call on one of its ends. -/
inductive Task (ι : Type) where
  | forwardLoop
  | call (id : ι)
  deriving DecidableEq, Repr

/-- The entry of `task` performing `op` on the channel and being answered `ans`. -/
abbrev entry {ι : Type} (task : Task ι) (op : Op T) (ans : op.Ans K) : Entry (sig K T) (Task ι) :=
  ⟨task, op, ans⟩

/-- A new channel, its forward loop spawned, and calls yet to be made. -/
def opened {ι : Type} [DecidableEq K] (settings : Settings K T) (rounds : Nat) (calls : ι → Call T) :
    Config (machine settings) (Task ι) (Outcome T) where
  state := Pipe.new
  procs
    | .forwardLoop => Overflow.forwardLoop rounds
    | .call id => (calls id).program settings

end Programs

end LongTrader.Overflow
