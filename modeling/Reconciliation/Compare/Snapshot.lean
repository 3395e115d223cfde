/-
# The two sides of a comparison

An exchange snapshot is what one exchange reported at one instant, with the categories that
could not be collected marked as degraded.  A ledger snapshot is what the ledger expected of all
exchanges at one instant.

* `ExchangeSnapshot.isComplete`, `ExchangeSnapshot.isUsable`: nothing or not everything is
  missing;
* `LedgerSnapshot.ofState`: the expectation recorded in a state of the ledger.
-/
import Reconciliation.Account.Category
import Reconciliation.Ledger.State

namespace Reconciliation

/-! ## 1. What an exchange reports -/

structure ExchangeSnapshot where
  exchange : ExchangeId
  capturedAt : Instant
  balances : SortedMap AssetId Balance
  openOrders : List Order
  positions : List Position
  /-- The categories that could not be collected. -/
  degraded : PerCategory Bool
  collectionError : Option String
  deriving DecidableEq

namespace ExchangeSnapshot

/-- A snapshot of nothing. -/
def new (exchange : ExchangeId) (time : Instant) : ExchangeSnapshot :=
  { exchange, capturedAt := time, balances := .empty, openOrders := [], positions := [],
    degraded := .const false, collectionError := none }

/-- The snapshot of an exchange that gave nothing at all. -/
def unavailable (exchange : ExchangeId) (time : Instant) (error : String) : ExchangeSnapshot :=
  { new exchange time with degraded := .const true, collectionError := some error }

/-- Marks a category as missing and adds the reason to the collection error. -/
def markDegraded (s : ExchangeSnapshot) (c : Category) (error : String) : ExchangeSnapshot :=
  let reason := c.name ++ ": " ++ error
  { s with
    degraded := s.degraded.set c true
    collectionError := some (match s.collectionError with
      | some earlier => earlier ++ "; " ++ reason
      | none => reason) }

def isDegraded (s : ExchangeSnapshot) (c : Category) : Bool := s.degraded.get c

/-- Every category was collected without an error. -/
def isComplete (s : ExchangeSnapshot) : Bool :=
  s.degraded.members.isEmpty && s.collectionError.isNone

/-- At least one category can be compared. -/
def isUsable (s : ExchangeSnapshot) : Bool := Category.all.any fun c => !s.isDegraded c

/-- A set of categories from a list in any order. -/
def readCategories? (j : Json) : Option (PerCategory Bool) :=
  (j.asList? Category.ofJson?).map (·.foldl (·.set · true) (.const false))

def ofJson? (j : Json) : Option ExchangeSnapshot :=
  j.readRecord do
    let exchange ← .required "exchange_id" (Identifier.ofJson? .exchange)
    let capturedAt ← .required "captured_at" Instant.ofJson?
    let balances ← .required "balances"
      (·.asMembers? (Identifier.ofText? .asset) Balance.ofJson?)
    let openOrders ← .required "open_orders" (·.asList? Order.ofJson?)
    let positions ← .required "positions" (·.asList? Position.ofJson?)
    let degraded ← .required "degraded_categories" readCategories?
    let collectionError ← .optional "collection_error" Json.asText?
    return ⟨exchange, capturedAt, .ofList balances, openOrders, positions, degraded,
      collectionError⟩

def toJson (s : ExchangeSnapshot) : Json :=
  .object [
    ("exchange_id", s.exchange.toJson),
    ("captured_at", s.capturedAt.toJson),
    ("balances", .object (s.balances.entries.map fun (a, b) => (a.text, b.toJson))),
    ("open_orders", .array (s.openOrders.map (·.toJson))),
    ("positions", .array (s.positions.map (·.toJson))),
    ("degraded_categories", .array (s.degraded.members.map (·.toJson))),
    ("collection_error", .ofOption .text s.collectionError)]

end ExchangeSnapshot

/-! ## 2. What the ledger expects -/

/-- The expectation for one exchange.  The orders include closed ones, which are expected to be
missing from an exchange's open orders. -/
structure ExpectedState where
  balances : SortedMap AssetId Balance
  orders : List Order
  positions : List Position
  deriving DecidableEq

namespace ExpectedState

def empty : ExpectedState := ⟨.empty, [], []⟩

instance : Inhabited ExpectedState := ⟨empty⟩

/-- What a book expects. -/
def ofBook (b : AccountBook) : ExpectedState := ⟨b.balances, b.orders.values, b.positions.values⟩

def ofJson? (j : Json) : Option ExpectedState :=
  j.readRecord do
    let balances ← .required "expected_balances"
      (·.asMembers? (Identifier.ofText? .asset) Balance.ofJson?)
    return ⟨.ofList balances, ← .required "expected_open_orders" (·.asList? Order.ofJson?),
      ← .required "expected_positions" (·.asList? Position.ofJson?)⟩

def toJson (s : ExpectedState) : Json :=
  .object [
    ("expected_balances", .object (s.balances.entries.map fun (a, b) => (a.text, b.toJson))),
    ("expected_open_orders", .array (s.orders.map (·.toJson))),
    ("expected_positions", .array (s.positions.map (·.toJson)))]

end ExpectedState

structure LedgerSnapshot where
  /-- The instant that the view was asked for. -/
  capturedAt : Instant
  version : Nat
  /-- When the version was committed. -/
  committedAt : Instant
  exchanges : SortedMap ExchangeId ExpectedState
  deriving DecidableEq

namespace LedgerSnapshot

/-- The expectation of a ledger state, asked for as of an instant. -/
def ofState (s : LedgerState) (time : Instant) : LedgerSnapshot :=
  ⟨time, s.version, s.committedAt, s.books.mapValues fun _ b => .ofBook b⟩

/-- The view is newer than what was asked for, because older history was dropped. -/
def isLaterThanRequested (s : LedgerSnapshot) : Bool := s.capturedAt < s.committedAt

/-- What is expected of an exchange; nothing of one without a book. -/
def expected (s : LedgerSnapshot) (e : ExchangeId) : ExpectedState :=
  (s.exchanges.get? e).getD .empty

def ofJson? (j : Json) : Option LedgerSnapshot :=
  j.readRecord do
    let capturedAt ← .required "captured_at" Instant.ofJson?
    let version ← .required "version" Json.asNat64?
    let committedAt ← .required "committed_at" Instant.ofJson?
    let exchanges ← .required "exchanges"
      (·.asMembers? (Identifier.ofText? .exchange) ExpectedState.ofJson?)
    return ⟨capturedAt, version, committedAt, .ofList exchanges⟩

/-- The exchanges with what is expected of them. -/
def exchangesJson (s : LedgerSnapshot) : Json :=
  .object (s.exchanges.entries.map fun (e, x) => (e.text, x.toJson))

def toJson (s : LedgerSnapshot) : Json :=
  .object [
    ("captured_at", s.capturedAt.toJson),
    ("version", .ofNat s.version),
    ("committed_at", s.committedAt.toJson),
    ("exchanges", s.exchangesJson)]

end LedgerSnapshot

end Reconciliation
