/-
# Paper venues

A paper venue is an exchange that exists on paper: an account in memory, with faults that can be
switched on.  A call is begun at one time and answered after the venue's delay; what it will
answer with is settled when it begins, except for the account and the connection.

* `PaperVenue.beginCall`: the delay and the fault of a call, and the venue after it;
* `PaperVenue.answer`: the answer.
-/
import Reconciliation.Collection

namespace Reconciliation

/-! ## 1. Venues -/

/-- A failure that a venue answers with. -/
structure PaperFault where
  error : ConnectorError
  /-- The calls that it is left for; without a number it stays. -/
  remaining : Option Nat
  deriving DecidableEq

structure PaperVenue where
  exchange : ExchangeId
  supportsPositions : Bool
  account : AccountBook
  /-- The delay of every call, in milliseconds. -/
  latency : Nat
  /-- What a category's calls take on top of it. -/
  categoryLatency : PerCategory Nat
  faults : PerCategory (Option PaperFault)
  connected : Bool
  /-- When the calls of a category began, the latest first. -/
  calls : PerCategory (List Nat)
  deriving DecidableEq

namespace PaperVenue

def new (exchange : ExchangeId) : PaperVenue :=
  { exchange, supportsPositions := true, account := .empty, latency := 0
    categoryLatency := .const 0, faults := .const none, connected := true, calls := .const [] }

/-- The name of the connector to a paper venue. -/
def connectorName : String := "paper"

/-! ## 2. Changes -/

/-- An account from lists of orders and positions. -/
def accountOf (balances : SortedMap AssetId Balance) (orders : List Order)
    (positions : List Position) : AccountBook :=
  ⟨balances, .ofList (orders.map fun o => (o.id, o)),
    .ofList (positions.map fun p => (p.symbol, p))⟩

/-- Reads an account; each of its parts may be missing. -/
def accountOfJson? (j : Json) : Option AccountBook :=
  j.readRecord do
    let balances ← .defaulted "balances" []
      (·.asMembers? (Identifier.ofText? .asset) Balance.ofJson?)
    let orders ← .defaulted "orders" [] (·.asList? Order.ofJson?)
    let positions ← .defaulted "positions" [] (·.asList? Position.ofJson?)
    return accountOf (.ofList balances) orders positions

def onAccount (f : AccountBook → AccountBook) (v : PaperVenue) : PaperVenue :=
  { v with account := f v.account }

/-- Fails the calls of a category. -/
def setFault (v : PaperVenue) (c : Category) (f : PaperFault) : PaperVenue :=
  { v with faults := v.faults.set c (some f) }

def setCategoryLatency (v : PaperVenue) (c : Category) (ms : Nat) : PaperVenue :=
  { v with categoryLatency := v.categoryLatency.set c ms }

/-- Without faults and delays; the connection stays as it is. -/
def clearFaults (v : PaperVenue) : PaperVenue :=
  { v with faults := .const none, categoryLatency := .const 0, latency := 0 }

/-! ## 3. Calls -/

/-- The fault of the next call, and what is left of it. -/
def PaperFault.next : PaperFault → Option ConnectorError × PaperFault
  | ⟨e, none⟩ => (some e, ⟨e, none⟩)
  | ⟨e, some 0⟩ => (none, ⟨e, some 0⟩)
  | ⟨e, some (n + 1)⟩ => (some e, ⟨e, some n⟩)

/-- Begins a call at a time: its delay, its fault, and the venue after it. -/
def beginCall (v : PaperVenue) (c : Category) (now : Nat) :
    Nat × Option ConnectorError × PaperVenue :=
  let next := (v.faults.get c).map PaperFault.next
  (v.latency + v.categoryLatency.get c, next.bind (·.1),
    { v with
      calls := v.calls.set c (now :: v.calls.get c)
      faults := v.faults.set c (next.map (·.2)) })

/-- The state of a category.  Only open orders are reported. -/
def stateOf (v : PaperVenue) : Category → CategoryState
  | .balances => .balances v.account.balances
  | .orders => .orders (v.account.orders.values.filter (·.status.isOpen))
  | .positions => .positions v.account.positions.values

/-- The answer of a call that began with a fault or without.  A lost connection comes first. -/
def answer (v : PaperVenue) (c : Category) (fault : Option ConnectorError) :
    Except ConnectorError CategoryState :=
  if v.connected then
    match fault with
    | some e => .error e
    | none => .ok (v.stateOf c)
  else .error ⟨.transport, s!"{v.exchange} paper exchange disconnected"⟩

end PaperVenue

end Reconciliation
