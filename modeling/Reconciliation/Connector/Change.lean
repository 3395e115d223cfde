/-
# Changes to a paper venue

A change puts records into a venue's account, takes orders out, and switches faults and delays.
Its parts are applied in a fixed order: faults are cleared first and set last, and a whole account
comes before single records.

* `VenueChange.apply`: the venue afterwards, and what was there to be taken out.
-/
import Reconciliation.Connector.Paper

namespace Reconciliation

/-- A fault to switch on: its kind by name, its reason, and for how many calls. -/
structure FaultRequest where
  kind : String
  reason : String
  times : Option Nat

def FaultRequest.ofJson? (j : Json) : Option FaultRequest :=
  j.readRecord do
    return ⟨← .required "kind" Json.asText?, ← .defaulted "message" "" Json.asText?,
      ← .omissible "times" Json.asNat32?⟩

/-- What to change about a venue. -/
structure VenueChange where
  clearFaults : Bool
  /-- The account in place of the old one. -/
  account : Option AccountBook
  balances : List (AssetId × Balance)
  orders : List Order
  /-- The orders to take out. -/
  removeOrders : List OrderId
  positions : List Position
  connected : Option Bool
  latency : Option Nat
  categoryLatency : List (Category × Nat)
  faults : List (Category × FaultRequest)

namespace VenueChange

/-- Reads a change; each of its parts may be missing. -/
def reader : Json.RecordReader VenueChange := do
  let clearFaults ← .defaulted "clear_faults" false Json.asBool?
  let account ← .omissible "fixture" PaperVenue.accountOfJson?
  let balances ← .defaulted "balances" []
    (·.asMembers? (Identifier.ofText? .asset) Balance.ofJson?)
  let orders ← .defaulted "orders" [] (·.asList? Order.ofJson?)
  let removeOrders ← .defaulted "remove_orders" [] (·.asList? Json.asText?)
  let positions ← .defaulted "positions" [] (·.asList? Position.ofJson?)
  let connected ← .omissible "connected" Json.asBool?
  let latency ← .omissible "latency_ms" Json.asNat64?
  let categoryLatency ← .defaulted "category_latency_ms" []
    (·.asMembers? Category.ofName? Json.asNat64?)
  let faults ← .defaulted "failures" [] (·.asMembers? Category.ofName? FaultRequest.ofJson?)
  return { clearFaults, account, balances, orders, removeOrders, positions, connected, latency,
           categoryLatency, faults }

/-- Takes orders out one after the other: which of them were there, and the venue without. -/
def takeOut (v : PaperVenue) : List OrderId → List Bool × PaperVenue
  | [] => ([], v)
  | id :: rest =>
    let (found, v') := takeOut (v.onAccount (·.dropOrder id)) rest
    (v.account.orders.contains id :: found, v')

/-- Everything but the faults. -/
def applyState (c : VenueChange) (v : PaperVenue) : List Bool × PaperVenue :=
  let v := if c.clearFaults then v.clearFaults else v
  let v := v.onAccount c.account.getD
  let v := c.balances.foldl (fun v (a, b) => v.onAccount (·.putBalance a b)) v
  let v := c.orders.foldl (fun v o => v.onAccount (·.putOrder o)) v
  let (removed, v) := takeOut v c.removeOrders
  let v := c.positions.foldl (fun v p => v.onAccount (·.putPosition p)) v
  let v := { v with connected := c.connected.getD v.connected
                    latency := c.latency.getD v.latency }
  (removed, c.categoryLatency.foldl (fun v (c, ms) => v.setCategoryLatency c ms) v)

/-- Sets faults up to the first of an unknown kind. -/
def applyFaults (v : PaperVenue) : List (Category × FaultRequest) → Bool × PaperVenue
  | [] => (true, v)
  | (c, f) :: rest =>
    match ConnectorError.ofName? f.kind f.reason with
    | some error => applyFaults (v.setFault c ⟨error, f.times⟩) rest
    | none => (false, v)

/-- The venue afterwards.  The answer says which orders were there to be taken out, or is nothing
if a fault has an unknown kind; everything before that fault holds all the same. -/
def apply (c : VenueChange) (v : PaperVenue) : Option (List Bool) × PaperVenue :=
  let (removed, v) := c.applyState v
  let ordered := Category.all.filterMap fun k => (c.faults.lookup k).map (k, ·)
  let (known, v) := applyFaults v ordered
  (if known then some removed else none, v)

end VenueChange

end Reconciliation
