/-
# Positions

A position is an exposure to a symbol: a quantity on one side.  Without a side it is flat.
-/
import Reconciliation.Account.Order

namespace Reconciliation

structure Position where
  exchange : ExchangeId
  symbol : Symbol
  side : Option Side
  quantity : Decimal
  entryPrice : Option Decimal
  markPrice : Option Decimal
  updatedAt : Instant
  deriving DecidableEq

namespace Position

/-- The quantity with the sign of its side.  A zero loses its places. -/
def signedQuantity (p : Position) : Decimal :=
  if p.quantity.isZero then .zero
  else
    match p.side with
    | some .buy => p.quantity
    | some .sell => -p.quantity
    | none => .zero

/-- The price that values the position: its mark, else what it was entered at. -/
def referencePrice (p : Position) : Option Decimal := p.markPrice.or p.entryPrice

def ofJson? (j : Json) : Option Position :=
  j.readRecord do
    let exchange ← Json.RecordReader.required "exchange" (Identifier.ofJson? .exchange)
    let symbol ← Json.RecordReader.required "symbol" (Identifier.ofJson? .symbol)
    let side ← Json.RecordReader.optional "side" Side.ofJson?
    let quantity ← Json.RecordReader.required "quantity" Decimal.ofJson?
    let entryPrice ← Json.RecordReader.optional "entry_price" Decimal.ofJson?
    let markPrice ← Json.RecordReader.omissible "mark_price" Decimal.ofJson?
    let updatedAt ← Json.RecordReader.required "updated_at" Instant.ofJson?
    return ⟨exchange, symbol, side, quantity, entryPrice, markPrice, updatedAt⟩

def toJson (p : Position) : Json :=
  .object [
    ("exchange", p.exchange.toJson),
    ("symbol", p.symbol.toJson),
    ("side", .ofOption Side.toJson p.side),
    ("quantity", p.quantity.toJson),
    ("entry_price", .ofOption Decimal.toJson p.entryPrice),
    ("mark_price", .ofOption Decimal.toJson p.markPrice),
    ("updated_at", p.updatedAt.toJson)]

end Position

end Reconciliation
