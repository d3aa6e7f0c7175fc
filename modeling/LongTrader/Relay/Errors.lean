import LongTrader.Contract
import Mathlib.Logic.Function.Iterate

/-! The errors of a worker whose backend is another worker: what the proxy makes of a port error, and
what the remote adapter makes of the answer. -/

namespace LongTrader.Relay

/-- `connectrpc::ErrorCode`. The library may know further codes. -/
inductive ErrorCode where
  | canceled
  | unknown
  | invalidArgument
  | deadlineExceeded
  | notFound
  | alreadyExists
  | permissionDenied
  | resourceExhausted
  | failedPrecondition
  | aborted
  | outOfRange
  | unimplemented
  | internal
  | unavailable
  | dataLoss
  | unauthenticated
  | other (debug : String)
  deriving DecidableEq, Repr

/-- `connectrpc::ConnectError`. -/
structure ConnectError where
  code : ErrorCode
  message : String
  deriving DecidableEq, Repr

/-- What `connectrpc` does with its codes: reading a gRPC status, and answering over HTTP. -/
structure Connect where
  fromGrpcCode : Nat → Option ErrorCode
  httpStatus : ErrorCode → Nat
  body : ConnectError → String

/-- gRPC knows the statuses up to 16, and HTTP reports an error from 400 on. -/
structure Connect.Documented (connect : Connect) : Prop where
  grpc : ∀ code, 16 < code → connect.fromGrpcCode code = none
  http : ∀ code, 400 ≤ connect.httpStatus code

variable (connect : Connect)

/-- `proxy::rpc_code_to_connect`. -/
def rpcCodeToConnect (code : Nat) (message : String) : ConnectError :=
  match connect.fromGrpcCode code with
  | some .unknown | none => ⟨.internal, message⟩
  | some .outOfRange => ⟨.invalidArgument, message⟩
  | some (.other debug) => ⟨.internal, debug ++ ": " ++ message⟩
  | some code => ⟨code, message⟩

/-- `proxy::map_port`. -/
def mapPort : PortError → ConnectError
  | .invalidArgument message => ⟨.invalidArgument, message⟩
  | .missingField field => ⟨.invalidArgument, "missing required field: " ++ field⟩
  | .notFound what => ⟨.notFound, what⟩
  | .unsupported operation => ⟨.unimplemented, operation⟩
  | .rpc code message => rpcCodeToConnect connect code message
  | .transport message => ⟨.internal, (PortError.transport message).display⟩
  | .decimal error => ⟨.internal, (PortError.decimal error).display⟩

/-- What `transport::unary` and `RemoteAdapter::unary` make of an answer that is an error: the HTTP
status stands where the gRPC code is expected. -/
def received (error : ConnectError) : PortError := .rpc (connect.httpStatus error.code) (connect.body error)

/-- A port error one worker further. -/
def hop (error : PortError) : PortError := received connect (mapPort connect error)

variable {connect} (documented : connect.Documented)

include documented

theorem mapPort_received (error : ConnectError) :
    mapPort connect (received connect error) = ⟨.internal, connect.body error⟩ := by
  have beyond : connect.fromGrpcCode (connect.httpStatus error.code) = none := by
    apply documented.grpc
    exact Nat.lt_of_lt_of_le (by decide) (documented.http error.code)
  rw [received, mapPort, rpcCodeToConnect, beyond]

/-- Behind a chain of workers a client reads the code of the venue's error just if no worker relays
another one's answer, or the code is `internal` anyway. What was said of the error is still there, in
as many wrappings as there are workers. -/
theorem chain_reports_code_iff (workers : Nat) (error : PortError) :
    ((mapPort connect ((hop connect)^[workers] error)).code = (mapPort connect error).code ↔
        workers = 0 ∨ (mapPort connect error).code = .internal) ∧
      ∀ further, workers = further + 1 → mapPort connect ((hop connect)^[workers] error) =
        ⟨.internal, connect.body (mapPort connect ((hop connect)^[further] error))⟩ := by
  have relayed : ∀ further, mapPort connect ((hop connect)^[further + 1] error) =
      ⟨.internal, connect.body (mapPort connect ((hop connect)^[further] error))⟩ := by
    intro further
    rw [Function.iterate_succ_apply']
    exact mapPort_received documented _
  refine ⟨?_, fun further same => same ▸ relayed further⟩
  cases workers with
  | zero => exact iff_of_true rfl (.inl rfl)
  | succ further =>
    rw [relayed further]
    constructor
    · intro same
      exact .inr same.symm
    · intro same
      rcases same with none | internal
      · exact absurd none (Nat.succ_ne_zero _)
      · exact internal.symm

omit documented

/-- The codes of gRPC in the order of their statuses. -/
def grpcCodes : List ErrorCode :=
  [.canceled, .unknown, .invalidArgument, .deadlineExceeded, .notFound, .alreadyExists, .permissionDenied,
    .resourceExhausted, .failedPrecondition, .aborted, .outOfRange, .unimplemented, .internal, .unavailable,
    .dataLoss, .unauthenticated]

def ErrorCode.httpStatus : ErrorCode → Nat
  | .canceled => 499
  | .unknown | .internal | .dataLoss | .other _ => 500
  | .invalidArgument | .failedPrecondition | .outOfRange => 400
  | .deadlineExceeded => 504
  | .notFound => 404
  | .alreadyExists | .aborted => 409
  | .permissionDenied => 403
  | .resourceExhausted => 429
  | .unimplemented => 501
  | .unavailable => 503
  | .unauthenticated => 401

/-- The codes and statuses of the Connect protocol, with the message alone as the body. -/
def connectProtocol : Connect where
  fromGrpcCode code := if code = 0 then none else grpcCodes[code - 1]?
  httpStatus := ErrorCode.httpStatus
  body error := "\x7b\"message\":\"" ++ error.message ++ "\"\x7d"

theorem connectProtocol_documented : connectProtocol.Documented := by
  constructor
  · intro code beyond
    have length : grpcCodes.length = 16 := rfl
    have some : code ≠ 0 := by omega
    change (if code = 0 then none else grpcCodes[code - 1]?) = none
    rw [if_neg some, List.getElem?_eq_none_iff]
    omega
  · intro code
    cases code <;> exact Nat.le_of_ble_eq_true rfl

/-- A missing order is reported as missing by the worker on the venue, and as a fault by the next. -/
theorem chain_reports_notFound :
    ((mapPort connectProtocol ((hop connectProtocol)^[1] (.notFound "trigger order t-1"))).code =
        (mapPort connectProtocol (.notFound "trigger order t-1")).code ↔
      1 = 0 ∨ (mapPort connectProtocol (.notFound "trigger order t-1")).code = .internal) ∧
    ∀ further, 1 = further + 1 →
      mapPort connectProtocol ((hop connectProtocol)^[1] (.notFound "trigger order t-1")) = ⟨.internal,
        connectProtocol.body
          (mapPort connectProtocol ((hop connectProtocol)^[further] (.notFound "trigger order t-1")))⟩ :=
  chain_reports_code_iff connectProtocol_documented 1 (.notFound "trigger order t-1")

end LongTrader.Relay
