/-
# Findings

A finding says what a comparison found out about one entity, in terms of the domain.  Its
severity, its values and its wording follow from it.

* `Finding.discrepancy`: the finding as a discrepancy of an exchange at an instant.
-/
import Reconciliation.Compare.Discrepancy
import Reconciliation.Account.Category
import Reconciliation.Account.Position

namespace Reconciliation

/-- The side that a record comes from. -/
inductive Source
  | ledger
  | exchange
  deriving DecidableEq, Repr

def Source.name : Source → String
  | .ledger => "ledger"
  | .exchange => "exchange"

/-- Why a record cannot be compared. -/
inductive RecordProblem
  | negativeBalance (balance : Balance)
  | unbalancedTotal (balance : Balance)
  | negativeOrder (quantity : Decimal)
  | overfilledOrder (quantity filled : Decimal)
  | repeatedOrder
  | negativePosition (quantity : Decimal)
  | sidelessPosition (quantity : Decimal)
  | repeatedSymbol
  deriving DecidableEq

namespace RecordProblem

def category : RecordProblem → Category
  | .negativeBalance _ => .balances
  | .unbalancedTotal _ => .balances
  | .negativeOrder _ => .orders
  | .overfilledOrder .. => .orders
  | .repeatedOrder => .orders
  | .negativePosition _ => .positions
  | .sidelessPosition _ => .positions
  | .repeatedSymbol => .positions

def message : RecordProblem → String
  | .negativeBalance b =>
    s!"negative balance component (total={b.total}, free={b.free}, locked={b.locked})"
  | .unbalancedTotal b =>
    s!"total {b.total} does not equal free {b.free} + locked {b.locked}"
  | .negativeOrder q => s!"negative order quantity {q}"
  | .overfilledOrder q f => s!"filled quantity {f} exceeds order quantity {q}"
  | .repeatedOrder => "order id reported more than once"
  | .negativePosition q => s!"negative position quantity {q}"
  | .sidelessPosition q => s!"position quantity {q} has no side"
  | .repeatedSymbol => "symbol reported more than once"

end RecordProblem

/-- The sides between which a position diverges. -/
inductive Holder
  | ledgerOnly
  | exchangeOnly
  | both
  deriving DecidableEq, Repr

/-- What a comparison found out. -/
inductive Finding
  | balanceMismatch (asset : AssetId) (severity : Severity) (expected actual delta : Decimal)
  | unexpectedAsset (asset : AssetId) (actual : Decimal)
  | missingAsset (asset : AssetId) (expected : Decimal)
  | orderMissing (expected : Order)
  | orderUntracked (actual : Order)
  | orderStatusMismatch (severity : Severity) (expected actual : Order)
  | positionMismatch (symbol : Symbol) (severity : Severity) (holder : Holder)
      (expected actual : Decimal)
  | connectivity (exchange : ExchangeId) (error : String)
  | detectionSkipped (category : Category)
  | dataIntegrity (source : Source) (key : String) (problem : RecordProblem)
  deriving DecidableEq

namespace Finding

def type : Finding → DiscrepancyType
  | .balanceMismatch .. => .balanceMismatch
  | .unexpectedAsset .. => .unexpectedAsset
  | .missingAsset .. => .missingAsset
  | .orderMissing _ => .orderMissing
  | .orderUntracked _ => .orderUntracked
  | .orderStatusMismatch .. => .orderStatusMismatch
  | .positionMismatch .. => .positionMismatch
  | .connectivity .. => .connectivity
  | .detectionSkipped _ => .detectionSkipped
  | .dataIntegrity .. => .dataIntegrity

def severity : Finding → Severity
  | .balanceMismatch _ s .. => s
  | .unexpectedAsset .. => .warning
  | .missingAsset .. => .critical
  | .orderMissing _ => .critical
  | .orderUntracked _ => .critical
  | .orderStatusMismatch s .. => s
  | .positionMismatch _ s .. => s
  | .connectivity .. => .critical
  | .detectionSkipped _ => .info
  | .dataIntegrity .. => .critical

/-- A type with a fixed severity always has that one. -/
theorem severity_of_fixed {f : Finding} {s : Severity} (h : f.type.fixedSeverity = some s) :
    f.severity = s := by
  cases f <;> simp_all [type, severity, DiscrepancyType.fixedSeverity]

/-- What the finding is about. -/
def entity : Finding → String
  | .balanceMismatch a .. => a.text
  | .unexpectedAsset a _ => a.text
  | .missingAsset a _ => a.text
  | .orderMissing o => o.id
  | .orderUntracked o => o.id
  | .orderStatusMismatch _ o _ => o.id
  | .positionMismatch s .. => s.text
  | .connectivity e _ => e.text
  | .detectionSkipped c => c.name
  | .dataIntegrity source key problem => s!"{source.name}:{problem.category.name}:{key}"

def expected : Finding → Option String
  | .balanceMismatch _ _ e _ _ => some e.toText
  | .missingAsset _ e => some e.toText
  | .orderMissing o => some o.status.name
  | .orderStatusMismatch _ o _ => some o.status.name
  | .positionMismatch _ _ _ e _ => some e.toText
  | _ => none

def actual : Finding → Option String
  | .balanceMismatch _ _ _ a _ => some a.toText
  | .unexpectedAsset _ a => some a.toText
  | .orderUntracked o => some o.status.name
  | .orderStatusMismatch _ _ o => some o.status.name
  | .positionMismatch _ _ _ _ a => some a.toText
  | .connectivity _ error => some error
  | _ => none

/-- An order's terms in a description. -/
def termsOf (o : Order) : String := s!"order {o.id} ({o.symbol} {o.side.word} {o.quantity})"

def description : Finding → String
  | .balanceMismatch asset _ expected actual delta =>
    s!"{asset} balance differs by {delta} (expected {expected}, exchange {actual})"
  | .unexpectedAsset asset actual => s!"exchange holds {actual} {asset} unknown to the ledger"
  | .missingAsset asset expected =>
    s!"ledger expects {expected} {asset} but the exchange reports none"
  | .orderMissing o => s!"{termsOf o} is open in the ledger but not on the exchange"
  | .orderUntracked o => s!"{termsOf o} is open on the exchange but unknown to the ledger"
  | .orderStatusMismatch _ e a =>
    s!"order {e.id} is {e.status.name} in the ledger but {a.status.name} on the exchange " ++
      s!"(filled {e.filledQuantity} vs {a.filledQuantity})"
  | .positionMismatch symbol _ .ledgerOnly expected _ =>
    s!"ledger holds {expected} {symbol} but the exchange position is flat"
  | .positionMismatch symbol _ .exchangeOnly _ actual =>
    s!"exchange holds {actual} {symbol} the ledger does not track"
  | .positionMismatch symbol _ .both expected actual =>
    s!"{symbol} position differs (expected {expected}, exchange {actual})"
  | .connectivity exchange error => s!"collection from {exchange} failed: {error}"
  | .detectionSkipped c => s!"{c.name} comparison skipped: exchange data unavailable"
  | .dataIntegrity source key problem =>
    s!"malformed {source.name} record {key}: {problem.message}"

def discrepancy (exchange : ExchangeId) (time : Instant) (f : Finding) : Discrepancy :=
  .new exchange f.type f.severity f.entity f.expected f.actual f.description time

end Finding

end Reconciliation
