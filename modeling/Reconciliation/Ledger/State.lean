/-
# Ledger states

A state is one version of the whole ledger: a book for each exchange, the sequence number of the
last change in it, and the time of its commit.  A change that would leave a book contradicting
itself is refused.

* `AccountBooks.change`, `AccountBooks.changeAll`: one change and a batch of them, in place;
* `AccountBooks.apply`, `AccountBooks.applyAll`: what they make of a copy.
-/
import Reconciliation.SortedMap
import Reconciliation.Ledger.Error
import Reconciliation.Ledger.Mutation

namespace Reconciliation

/-! ## 1. Books -/

/-- What an account on one exchange is expected to hold. -/
structure AccountBook where
  balances : SortedMap AssetId Balance
  orders : SortedMap OrderId Order
  positions : SortedMap Symbol Position
  deriving DecidableEq

namespace AccountBook

def empty : AccountBook := ⟨.empty, .empty, .empty⟩

instance : Inhabited AccountBook := ⟨empty⟩

/-- The balance of an asset; nothing for one that is not there. -/
def balance (b : AccountBook) (a : AssetId) : Balance := (b.balances.get? a).getD .empty

def putBalance (b : AccountBook) (a : AssetId) (v : Balance) : AccountBook :=
  { b with balances := b.balances.insert a v }

def putOrder (b : AccountBook) (o : Order) : AccountBook :=
  { b with orders := b.orders.insert o.id o }

def dropOrder (b : AccountBook) (id : OrderId) : AccountBook :=
  { b with orders := b.orders.erase id }

def putPosition (b : AccountBook) (p : Position) : AccountBook :=
  { b with positions := b.positions.insert p.symbol p }

def dropPosition (b : AccountBook) (s : Symbol) : AccountBook :=
  { b with positions := b.positions.erase s }

def ofJson? (j : Json) : Option AccountBook :=
  j.readRecord do
    let balances ← .required "balances"
      (·.asMembers? (Identifier.ofText? .asset) Balance.ofJson?)
    let orders ← .required "orders" (·.asMembers? some Order.ofJson?)
    let positions ← .required "positions"
      (·.asMembers? (Identifier.ofText? .symbol) Position.ofJson?)
    return ⟨.ofList balances, .ofList orders, .ofList positions⟩

def toJson (b : AccountBook) : Json :=
  .object [
    ("balances", .object (b.balances.entries.map fun (a, v) => (a.text, v.toJson))),
    ("orders", .object (b.orders.entries.map fun (id, o) => (id, o.toJson))),
    ("positions", .object (b.positions.entries.map fun (s, p) => (s.text, p.toJson)))]

end AccountBook

/-- The parts are not negative and make up the total. -/
def Balance.check (asset : AssetId) (b : Balance) : Except LedgerError Unit := do
  if b.free < .zero ∨ b.locked < .zero then
    throw (.invalid (.negativeBalance asset b.free b.locked))
  if ¬ b.total.Same (← b.free.add b.locked) then
    throw (.invalid (.unbalancedTotal asset b))

/-- The balance with both parts moved by an amount each. -/
def Balance.adjust (b : Balance) (freeDelta lockedDelta : Decimal) :
    Except Decimal.Overflow Balance := do
  ofParts (← b.free.add freeDelta) (← b.locked.add lockedDelta)

/-- Nothing is filled beyond the quantity, and the quantity is not negative. -/
def Order.check (o : Order) : Except LedgerError Unit :=
  if o.quantity < .zero ∨ o.quantity < o.filledQuantity then
    throw (.invalid (.overfilledOrder o.id o.quantity o.filledQuantity))
  else return ()

/-- Whether there is no exposure. -/
def Position.isFlat (p : Position) : Bool := p.quantity.isZero || p.side.isNone

/-- The books of all exchanges. -/
abbrev AccountBooks := SortedMap ExchangeId AccountBook

namespace AccountBooks

/-- The book of an exchange; an empty one for an exchange without. -/
def book (books : AccountBooks) (e : ExchangeId) : AccountBook := (books.get? e).getD .empty

/-- Changes the book of an exchange, which there is from then on. -/
def onBook (books : AccountBooks) (e : ExchangeId) (f : AccountBook → AccountBook) :
    AccountBooks :=
  books.update e .empty f

/-- One change, made in place.  A refused adjustment leaves the book that it has opened. -/
def change : LedgerMutation → LedgerAction AccountBooks Unit
  | .setBalance e a v => do
    v.check a
    modify (onBook · e (·.putBalance a v))
  | .adjustBalance e a freeDelta lockedDelta => do
    modify (onBook · e id)
    let next ← ((book (← get) e).balance a).adjust freeDelta lockedDelta
    next.check a
    modify (onBook · e (·.putBalance a next))
  | .upsertOrder o => do
    o.check
    modify (onBook · o.exchange (·.putOrder o))
  | .removeOrder e id => do
    if (book (← get) e).orders.contains id then modify (onBook · e (·.dropOrder id))
    else throw (.invalid (.untrackedOrder id e))
  | .setPosition p =>
    if p.quantity < .zero then throw (.invalid (.negativePosition p.symbol p.quantity))
    else if p.isFlat then modify (onBook · p.exchange (·.dropPosition p.symbol))
    else modify (onBook · p.exchange (·.putPosition p))
  | .closePosition e s =>
    modify fun books => if books.contains e then onBook books e (·.dropPosition s) else books

/-- A batch of changes in place, up to the first that is refused. -/
def changeAll : List LedgerMutation → LedgerAction AccountBooks Unit
  | [] => return ()
  | m :: rest => do
    change m
    changeAll rest

/-- The books after one change. -/
def apply (books : AccountBooks) (m : LedgerMutation) : Except LedgerError AccountBooks :=
  (change m).result books

/-- The books after a batch of changes; the first that is refused refuses them all. -/
def applyAll (books : AccountBooks) (mutations : List LedgerMutation) :
    Except LedgerError AccountBooks :=
  (changeAll mutations).result books

/-- The free part of an asset over all exchanges. -/
def freeBalance (books : AccountBooks) (a : AssetId) : Except Decimal.Overflow Decimal :=
  Decimal.sum ((books.values.filterMap (·.balances.get? a)).map (·.free))

def ofJson? (j : Json) : Option AccountBooks :=
  (j.asMembers? (Identifier.ofText? .exchange) AccountBook.ofJson?).map .ofList

def toJson (books : AccountBooks) : Json :=
  .object (books.entries.map fun (e, b) => (e.text, b.toJson))

end AccountBooks

/-! ## 2. States -/

/-- One version of the ledger. -/
structure LedgerState where
  version : Nat
  /-- The sequence number of the last change in this version. -/
  sequence : Nat
  committedAt : Instant
  books : AccountBooks
  deriving DecidableEq

namespace LedgerState

/-- The state before any change. -/
def genesis (time : Instant) : LedgerState := ⟨0, 0, time, .empty⟩

instance : Inhabited LedgerState := ⟨genesis default⟩

def freeBalance (s : LedgerState) (a : AssetId) : Except Decimal.Overflow Decimal :=
  AccountBooks.freeBalance s.books a

def ofJson? (j : Json) : Option LedgerState :=
  j.readRecord do
    return ⟨← .required "version" Json.asNat64?, ← .required "sequence" Json.asNat64?,
      ← .required "committed_at" Instant.ofJson?, ← .required "books" AccountBooks.ofJson?⟩

/-- The members of a state other than its commit time. -/
def timelessMembers (s : LedgerState) : List (String × Json) :=
  [("version", .ofNat s.version), ("sequence", .ofNat s.sequence),
    ("books", AccountBooks.toJson s.books)]

def toJson (s : LedgerState) : Json :=
  .object (s.timelessMembers ++ [("committed_at", s.committedAt.toJson)])

end LedgerState

end Reconciliation
