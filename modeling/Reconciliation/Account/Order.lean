/-
# Orders

An order is known by the id that its exchange gave it.  It is open until it is filled, canceled
or rejected.
-/
import Reconciliation.Identifier
import Reconciliation.Account.Balance
import Reconciliation.Time.Rfc3339

namespace Reconciliation

/-! ## 1. Side and status -/

inductive Side
  | buy
  | sell
  deriving DecidableEq, Repr

namespace Side

def inverse : Side → Side
  | .buy => .sell
  | .sell => .buy

/-- The sign of an exposure on this side. -/
def sign : Side → Int
  | .buy => 1
  | .sell => -1

/-- The name in records. -/
def recordName : Side → String
  | .buy => "Buy"
  | .sell => "Sell"

/-- The word in messages. -/
def word : Side → String
  | .buy => "buy"
  | .sell => "sell"

def ofJson? (j : Json) : Option Side :=
  j.asName?.bind fun n => [buy, sell].find? (·.recordName = n)

def toJson (s : Side) : Json := .text s.recordName

end Side

inductive OrderStatus
  | pendingNew
  | accepted
  | partiallyFilled
  | filled
  | canceled
  | rejected
  deriving DecidableEq, Repr

namespace OrderStatus

def all : List OrderStatus :=
  [.pendingNew, .accepted, .partiallyFilled, .filled, .canceled, .rejected]

/-- The name in records. -/
def recordName : OrderStatus → String
  | .pendingNew => "PendingNew"
  | .accepted => "Accepted"
  | .partiallyFilled => "PartiallyFilled"
  | .filled => "Filled"
  | .canceled => "Canceled"
  | .rejected => "Rejected"

/-- The name in findings. -/
def name : OrderStatus → String
  | .pendingNew => "pending_new"
  | .accepted => "accepted"
  | .partiallyFilled => "partially_filled"
  | .filled => "filled"
  | .canceled => "canceled"
  | .rejected => "rejected"

/-- Whether the order can still trade. -/
def isOpen : OrderStatus → Bool
  | .pendingNew => true
  | .accepted => true
  | .partiallyFilled => true
  | .filled => false
  | .canceled => false
  | .rejected => false

def ofJson? (j : Json) : Option OrderStatus :=
  j.asName?.bind fun n => all.find? (·.recordName = n)

def toJson (s : OrderStatus) : Json := .text s.recordName

end OrderStatus

/-! ## 2. Orders -/

structure Order where
  id : OrderId
  exchange : ExchangeId
  symbol : Symbol
  side : Side
  quantity : Decimal
  price : Option Decimal
  filledQuantity : Decimal
  averageFillPrice : Option Decimal
  status : OrderStatus
  clientOrderId : Option String
  updatedAt : Instant
  deriving DecidableEq

namespace Order

/-- The price that values the order: what was paid so far, else its limit. -/
def referencePrice (o : Order) : Option Decimal := o.averageFillPrice.or o.price

/-- What is left to trade, never less than nothing. -/
def remainingQuantity (o : Order) : Except Decimal.Overflow Decimal := do
  return (← o.quantity.sub o.filledQuantity).max .zero

def ofJson? (j : Json) : Option Order :=
  j.readRecord do
    let id ← Json.RecordReader.required "id" Json.asText?
    let exchange ← Json.RecordReader.required "exchange" (Identifier.ofJson? .exchange)
    let symbol ← Json.RecordReader.required "symbol" (Identifier.ofJson? .symbol)
    let side ← Json.RecordReader.required "side" Side.ofJson?
    let quantity ← Json.RecordReader.required "quantity" Decimal.ofJson?
    let price ← Json.RecordReader.optional "price" Decimal.ofJson?
    let filledQuantity ← Json.RecordReader.required "filled_quantity" Decimal.ofJson?
    let averageFillPrice ← Json.RecordReader.optional "avg_fill_price" Decimal.ofJson?
    let status ← Json.RecordReader.required "status" OrderStatus.ofJson?
    let clientOrderId ← Json.RecordReader.omissible "client_order_id" Json.asText?
    let updatedAt ← Json.RecordReader.required "updated_at" Instant.ofJson?
    return ⟨id, exchange, symbol, side, quantity, price, filledQuantity, averageFillPrice, status,
      clientOrderId, updatedAt⟩

def toJson (o : Order) : Json :=
  .object [
    ("id", .text o.id),
    ("exchange", o.exchange.toJson),
    ("symbol", o.symbol.toJson),
    ("side", o.side.toJson),
    ("quantity", o.quantity.toJson),
    ("price", .ofOption Decimal.toJson o.price),
    ("filled_quantity", o.filledQuantity.toJson),
    ("avg_fill_price", .ofOption Decimal.toJson o.averageFillPrice),
    ("status", o.status.toJson),
    ("client_order_id", .ofOption .text o.clientOrderId),
    ("updated_at", o.updatedAt.toJson)]

end Order

end Reconciliation
