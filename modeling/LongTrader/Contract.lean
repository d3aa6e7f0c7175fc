import Mathlib.Algebra.Ring.Int.Defs
import Mathlib.Algebra.Ring.Nat
import Mathlib.Data.List.Basic

/-! The contract messages and port errors shared by the control plane and the
risk gate. Only the fields that a modelled function reads are kept. -/

namespace LongTrader

abbrev Bytes := List UInt8

/-- `common.v1.ExchangeId`: one registered exchange instance on a backend. -/
structure ExchangeId where
  id : String
  label : String
  deriving DecidableEq, Repr, Inhabited

/-- An open protobuf enumeration: a known value or an unrecognised number. -/
inductive OrderSide where
  | unspecified
  | buy
  | sell
  | unknown (value : Int)
  deriving DecidableEq, Repr

/-- `trading.v1.OrderRequest`. A decimal travels as its base-10 text, and its
absence is the absence of the containing field. -/
structure OrderRequest where
  clientOrderId : String
  symbol : String
  side : OrderSide
  amount : Option String
  price : Option String
  deriving DecidableEq, Repr

/-- `trading.v1.Order` as a venue reports it. -/
structure Order where
  id : String
  clientOrderId : String
  symbol : String
  side : OrderSide
  amount : Option String
  remaining : Option String
  deriving DecidableEq, Repr

structure CreateOrderRequest where
  exchangeId : Option ExchangeId
  order : Option OrderRequest
  sessionId : String
  deriving DecidableEq, Repr

structure CreateOrdersRequest where
  exchangeId : Option ExchangeId
  orders : List OrderRequest
  sessionId : String
  deriving DecidableEq, Repr

/-- The value of a list of decimal digits, continuing `acc`. -/
def digitsValue (acc : Nat) : List Char → Option Nat
  | [] => some acc
  | c :: rest =>
    if c.isDigit then digitsValue (acc * 10 + (c.toNat - '0'.toNat)) rest else none

/-- `longtrader_contract::ext::DecimalConvertError`. -/
inductive DecimalConvertError where
  | empty
  | notBase10 (value reason : String)
  | outOfRange (value source : String)
  deriving DecidableEq, Repr

def DecimalConvertError.display : DecimalConvertError → String
  | .empty => "decimal payload is empty: a value is carried by the containing field's presence"
  | .notBase10 value reason => "`" ++ value ++ "` is not a base-10 decimal: " ++ reason
  | .outOfRange value source => "`" ++ value ++ "` is out of range for a decimal: " ++ source

/-- `ports::PortError`. -/
inductive PortError where
  | transport (message : String)
  | rpc (code : Nat) (message : String)
  | unsupported (operation : String)
  | missingField (field : String)
  | invalidArgument (message : String)
  | notFound (what : String)
  | decimal (error : DecimalConvertError)
  deriving DecidableEq, Repr

def PortError.display : PortError → String
  | .transport message => "transport error: " ++ message
  | .rpc code message => "rpc error (" ++ toString code ++ "): " ++ message
  | .unsupported operation => "operation unsupported by this backend: " ++ operation
  | .missingField field => "missing required field: " ++ field
  | .invalidArgument message => "invalid argument: " ++ message
  | .notFound what => "not found: " ++ what
  | .decimal error => error.display

end LongTrader
