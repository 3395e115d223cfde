/-
# Changes to a ledger

A mutation changes one slot of one exchange's book: the balance of an asset, an order, or the
position in a symbol.
-/
import Reconciliation.Account.Position

namespace Reconciliation

/-- One change to the expected state of an account. -/
inductive LedgerMutation
  | setBalance (exchange : ExchangeId) (asset : AssetId) (balance : Balance)
  /-- Moves the free and the locked part by an amount each. -/
  | adjustBalance (exchange : ExchangeId) (asset : AssetId) (freeDelta lockedDelta : Decimal)
  /-- Tracks an order, or replaces what was known of it. -/
  | upsertOrder (order : Order)
  | removeOrder (exchange : ExchangeId) (id : OrderId)
  /-- Replaces a position; a flat one goes away. -/
  | setPosition (position : Position)
  | closePosition (exchange : ExchangeId) (symbol : Symbol)
  deriving DecidableEq

namespace LedgerMutation

/-- The exchange whose book changes. -/
def exchange : LedgerMutation → ExchangeId
  | .setBalance e _ _ => e
  | .adjustBalance e _ _ _ => e
  | .upsertOrder o => o.exchange
  | .removeOrder e _ => e
  | .setPosition p => p.exchange
  | .closePosition e _ => e

/-- The name of the kind of change. -/
def kind : LedgerMutation → String
  | .setBalance .. => "set_balance"
  | .adjustBalance .. => "adjust_balance"
  | .upsertOrder _ => "upsert_order"
  | .removeOrder .. => "remove_order"
  | .setPosition _ => "set_position"
  | .closePosition .. => "close_position"

/-- The fields that follow the kind. -/
def fields : LedgerMutation → List (String × Json)
  | .setBalance e a b => [("exchange", e.toJson), ("asset", a.toJson), ("balance", b.toJson)]
  | .adjustBalance e a f l =>
    [("exchange", e.toJson), ("asset", a.toJson), ("free_delta", f.toJson),
      ("locked_delta", l.toJson)]
  | .upsertOrder o => [("order", o.toJson)]
  | .removeOrder e id => [("exchange", e.toJson), ("order_id", .text id)]
  | .setPosition p => [("position", p.toJson)]
  | .closePosition e s => [("exchange", e.toJson), ("symbol", s.toJson)]

def toJson (m : LedgerMutation) : Json := .object (("kind", .text m.kind) :: m.fields)

/-- Reads the fields of a kind. -/
def readFields (kind : String) : Json.RecordReader LedgerMutation :=
  let exchange := Json.RecordReader.required "exchange" (Identifier.ofJson? .exchange)
  let asset := Json.RecordReader.required "asset" (Identifier.ofJson? .asset)
  match kind with
  | "set_balance" =>
    return .setBalance (← exchange) (← asset) (← .required "balance" Balance.ofJson?)
  | "adjust_balance" =>
    return .adjustBalance (← exchange) (← asset) (← .required "free_delta" Decimal.ofJson?)
      (← .defaulted "locked_delta" .zero Decimal.ofJson?)
  | "upsert_order" => return .upsertOrder (← .required "order" Order.ofJson?)
  | "remove_order" => return .removeOrder (← exchange) (← .required "order_id" Json.asText?)
  | "set_position" => return .setPosition (← .required "position" Position.ofJson?)
  | "close_position" =>
    return .closePosition (← exchange) (← .required "symbol" (Identifier.ofJson? .symbol))
  | _ => fun _ => none

def ofJson? (j : Json) : Option LedgerMutation :=
  j.readRecord do readFields (← .required "kind" Json.asText?)

end LedgerMutation

end Reconciliation
