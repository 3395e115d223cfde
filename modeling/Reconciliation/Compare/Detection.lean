/-
# Comparing an exchange with the ledger

Each category is compared on its own.  Records that contradict themselves, and keys that one
side reports twice, are reported and left out; the others are matched by key.  All arithmetic is
checked: a result that no decimal can hold stops the comparison.

* `detect`: the findings about one exchange;
* `compareWithLedger`: the same as discrepancies in report order.
-/
import Reconciliation.Compare.Finding
import Reconciliation.Compare.Snapshot

namespace Reconciliation
namespace Detection

/-- Arithmetic that may overflow. -/
abbrev Checked (α : Type) := Except Decimal.Overflow α

/-- The results of a function that may have none, in order. -/
def gather (f : α → Checked (Option β)) : List α → Checked (List β)
  | [] => return []
  | a :: rest => do
    let b ← f a
    return b.toList ++ (← gather f rest)

/-- The keys of two maps, each once and in order. -/
def unionKeys [Ord κ] [Std.TransOrd κ] [Std.LawfulEqOrd κ] (m : SortedMap κ α)
    (n : SortedMap κ β) : List κ :=
  (SortedSet.ofKeys (m.keys ++ n.keys)).toList

/-! ## 1. Balances -/

/-- What is wrong with a balance by itself. -/
def balanceProblem (t : Tolerances) (b : Balance) : Checked (Option RecordProblem) := do
  if b.total.isNegative || b.free.isNegative || b.locked.isNegative then
    return some (.negativeBalance b)
  else
    let parts ← b.free.add b.locked
    return if ← t.within b.total parts then none else some (.unbalancedTotal b)

/-- The balances of one side that are wrong by themselves. -/
def balanceProblems (t : Tolerances) (balances : SortedMap AssetId Balance) :
    Checked (List (AssetId × RecordProblem)) :=
  gather (fun (a, b) => do return (← balanceProblem t b).map (a, ·)) balances.entries

/-- Compares what both sides say of an asset. -/
def compareBalance (t : Tolerances) (asset : AssetId) :
    Option Balance → Option Balance → Checked (Option Finding)
  | some expected, some actual => do
    if ← t.within expected.total actual.total then return none
    else
      let delta ← actual.total.sub expected.total
      let severity ← t.severityFor expected.total delta
      return some (.balanceMismatch asset severity expected.total actual.total delta)
  | none, some actual =>
    return if actual.total.isZero then none else some (.unexpectedAsset asset actual.total)
  | some expected, none =>
    return if expected.total.isZero then none else some (.missingAsset asset expected.total)
  | none, none => return none

def compareBalances (t : Tolerances) (expected actual : SortedMap AssetId Balance) :
    Checked (List Finding) := do
  let ledger ← balanceProblems t expected
  let exchange ← balanceProblems t actual
  let malformed := (ledger ++ exchange).map (·.1)
  let integrity := fun source => List.map fun (p : AssetId × RecordProblem) =>
    Finding.dataIntegrity source p.1.text p.2
  let matched ← gather
    (fun a => if a ∈ malformed then return none
      else compareBalance t a (expected.get? a) (actual.get? a))
    (unionKeys expected actual)
  return integrity .ledger ledger ++ integrity .exchange exchange ++ matched

/-! ## 2. Records by key -/

/-- The records of one side by key, without those that cannot be compared: a key that stands for
`none` has a record with a problem, or more than one record. -/
structure Index (κ α : Type) [Ord κ] where
  records : SortedMap κ (Option α)
  problems : List (κ × RecordProblem)

section Index

variable {κ α : Type} [Ord κ] [Std.TransOrd κ] [Std.LawfulEqOrd κ]

def Index.empty : Index κ α := ⟨.empty, []⟩

/-- Adds a record.  Its own problem comes first, then that its key is taken. -/
def Index.add (key : α → κ) (problem : α → Option RecordProblem) (repeated : RecordProblem)
    (index : Index κ α) (a : α) : Index κ α :=
  let found := (problem a).or
    (if index.records.contains (key a) then some repeated else none)
  match found with
  | some p => ⟨index.records.insert (key a) none, index.problems ++ [(key a, p)]⟩
  | none => ⟨index.records.insert (key a) (some a), index.problems⟩

def Index.ofList (key : α → κ) (problem : α → Option RecordProblem) (repeated : RecordProblem)
    (l : List α) : Index κ α :=
  l.foldl (Index.add key problem repeated) .empty

end Index

/-! ## 3. Orders -/

/-- What is wrong with an order by itself. -/
def orderProblem (o : Order) : Option RecordProblem :=
  if o.quantity.isNegative then some (.negativeOrder o.quantity)
  else if o.quantity < o.filledQuantity then some (.overfilledOrder o.quantity o.filledQuantity)
  else none

def indexOrders (l : List Order) : Index OrderId Order :=
  .ofList (·.id) orderProblem .repeatedOrder l

/-- How bad it is that an order's status differs: a warning if both sides agree on the value
that was filled. -/
def statusSeverity (t : Tolerances) (expected actual : Order) : Checked Severity := do
  let price := (actual.referencePrice.or expected.referencePrice).getD .one
  let expectedNotional ← expected.filledQuantity.mul price
  let actualNotional ← actual.filledQuantity.mul price
  return if ← t.within expectedNotional actualNotional then .warning else .critical

/-- Compares what both sides say of an order; the inner `none` marks a record that cannot be
compared. -/
def compareOrder (t : Tolerances) :
    Option (Option Order) → Option (Option Order) → Checked (Option Finding)
  | some none, _ => return none
  | _, some none => return none
  | some (some expected), none =>
    return if expected.status.isOpen then some (.orderMissing expected) else none
  | none, some (some actual) => return some (.orderUntracked actual)
  | some (some expected), some (some actual) => do
    if expected.status = actual.status then return none
    else return some (.orderStatusMismatch (← statusSeverity t expected actual) expected actual)
  | none, none => return none

def compareOrders (t : Tolerances) (expected actual : List Order) : Checked (List Finding) := do
  let ledger := indexOrders expected
  let exchange := indexOrders actual
  let integrity := fun source => List.map fun (p : OrderId × RecordProblem) =>
    Finding.dataIntegrity source p.1 p.2
  let matched ← gather
    (fun id => compareOrder t (ledger.records.get? id) (exchange.records.get? id))
    (unionKeys ledger.records exchange.records)
  return integrity .ledger ledger.problems ++ integrity .exchange exchange.problems ++ matched

/-! ## 4. Positions -/

/-- What is wrong with a position by itself. -/
def positionProblem (p : Position) : Option RecordProblem :=
  if p.quantity.isNegative then some (.negativePosition p.quantity)
  else if p.side.isNone && !p.quantity.isZero then some (.sidelessPosition p.quantity)
  else none

def indexPositions (l : List Position) : Index Symbol Position :=
  .ofList (·.symbol) positionProblem .repeatedSymbol l

/-- The exposure of a position; without one there is none. -/
def exposure (p : Option Position) : Decimal := (p.map (·.signedQuantity)).getD .zero

/-- The sides that hold a position. -/
def holderOf (expected actual : Option Position) : Holder :=
  match expected, actual with
  | some _, none => .ledgerOnly
  | none, some _ => .exchangeOnly
  | _, _ => .both

/-- Compares the values of two exposures to a symbol. -/
def compareExposure (t : Tolerances) (symbol : Symbol) (expected actual : Option Position) :
    Checked (Option Finding) := do
  let price := ((actual.bind (·.referencePrice)).or
    (expected.bind (·.referencePrice))).getD .one
  let expectedNotional ← (exposure expected).mul price
  let actualNotional ← (exposure actual).mul price
  if ← t.within expectedNotional actualNotional then return none
  else
    let severity ← t.severityFor expectedNotional (← actualNotional.sub expectedNotional)
    return some (.positionMismatch symbol severity (holderOf expected actual)
      (exposure expected) (exposure actual))

def comparePosition (t : Tolerances) (symbol : Symbol) :
    Option (Option Position) → Option (Option Position) → Checked (Option Finding)
  | some none, _ => return none
  | _, some none => return none
  | expected, actual => compareExposure t symbol expected.join actual.join

def comparePositions (t : Tolerances) (expected actual : List Position) :
    Checked (List Finding) := do
  let ledger := indexPositions expected
  let exchange := indexPositions actual
  let integrity := fun source => List.map fun (p : Symbol × RecordProblem) =>
    Finding.dataIntegrity source p.1.text p.2
  let matched ← gather
    (fun s => comparePosition t s (ledger.records.get? s) (exchange.records.get? s))
    (unionKeys ledger.records exchange.records)
  return integrity .ledger ledger.problems ++ integrity .exchange exchange.problems ++ matched

/-! ## 5. Everything -/

/-- The finding that a collection failed; it needs no ledger. -/
def connectivity (s : ExchangeSnapshot) : Option Finding :=
  s.collectionError.map (.connectivity s.exchange)

def compareCategory (t : Tolerances) (expected : ExpectedState) (s : ExchangeSnapshot)
    (c : Category) : Checked (List Finding) :=
  if s.isDegraded c then return [.detectionSkipped c]
  else
    match c with
    | .balances => compareBalances t expected.balances s.balances
    | .orders => compareOrders t expected.orders s.openOrders
    | .positions => comparePositions t expected.positions s.positions

/-- The findings about one exchange, category by category. -/
def detect (t : Tolerances) (s : ExchangeSnapshot) (expected : ExpectedState) :
    Checked (List Finding) := do
  if s.isUsable then
    let balances ← compareCategory t expected s .balances
    let orders ← compareCategory t expected s .orders
    let positions ← compareCategory t expected s .positions
    return (connectivity s).toList ++ balances ++ orders ++ positions
  else return (connectivity s).toList

end Detection

namespace ExchangeSnapshot

/-- Findings about the snapshot's exchange, as discrepancies of the snapshot's time in report
order. -/
def discrepancies (s : ExchangeSnapshot) (findings : List Finding) : List Discrepancy :=
  Discrepancy.sort (findings.map (Finding.discrepancy s.exchange s.capturedAt))

/-- Compares a snapshot with what the ledger expects of its exchange. -/
def compareWithLedger (s : ExchangeSnapshot) (t : Tolerances) (ledger : LedgerSnapshot) :
    Except Decimal.Overflow (List Discrepancy) := do
  return s.discrepancies (← Detection.detect t s (ledger.expected s.exchange))

/-- The discrepancy that stands for a failed collection. -/
def connectivity (s : ExchangeSnapshot) : List Discrepancy :=
  s.discrepancies (Detection.connectivity s).toList

end ExchangeSnapshot

end Reconciliation
