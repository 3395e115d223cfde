/-
# Discrepancies

A discrepancy is one divergence between what the ledger expects and what an exchange reports.
Its id is derived from its content, so the same divergence found twice has the same id.

* `Discrepancy.sort`: the order of a report: by exchange, type, entity and id.
-/
import Reconciliation.Compare.Tolerances
import Reconciliation.Identifier
import Reconciliation.Time.Rfc3339
import Reconciliation.Uuid

namespace Reconciliation

/-! ## 1. Types -/

/-- The kinds of divergence, in the order in which a report lists them. -/
inductive DiscrepancyType
  | balanceMismatch
  | unexpectedAsset
  | missingAsset
  | orderMissing
  | orderUntracked
  | orderStatusMismatch
  | positionMismatch
  | connectivity
  | detectionSkipped
  | dataIntegrity
  deriving DecidableEq, Repr

namespace DiscrepancyType

def all : List DiscrepancyType :=
  [.balanceMismatch, .unexpectedAsset, .missingAsset, .orderMissing, .orderUntracked,
    .orderStatusMismatch, .positionMismatch, .connectivity, .detectionSkipped, .dataIntegrity]

def name : DiscrepancyType → String
  | .balanceMismatch => "BALANCE_MISMATCH"
  | .unexpectedAsset => "UNEXPECTED_ASSET"
  | .missingAsset => "MISSING_ASSET"
  | .orderMissing => "ORDER_MISSING"
  | .orderUntracked => "ORDER_UNTRACKED"
  | .orderStatusMismatch => "ORDER_STATUS_MISMATCH"
  | .positionMismatch => "POSITION_MISMATCH"
  | .connectivity => "CONNECTIVITY"
  | .detectionSkipped => "DETECTION_SKIPPED"
  | .dataIntegrity => "DATA_INTEGRITY"

/-- The place in a report. -/
def rank (t : DiscrepancyType) : Nat := t.ctorIdx

/-- The severity of a type that does not depend on the size of the divergence. -/
def fixedSeverity : DiscrepancyType → Option Severity
  | .unexpectedAsset => some .warning
  | .missingAsset => some .critical
  | .orderMissing => some .critical
  | .orderUntracked => some .critical
  | .connectivity => some .critical
  | .dataIntegrity => some .critical
  | .detectionSkipped => some .info
  | .balanceMismatch => none
  | .orderStatusMismatch => none
  | .positionMismatch => none

def ofJson? (j : Json) : Option DiscrepancyType :=
  j.asName?.bind fun n => all.find? (·.name = n)

def toJson (t : DiscrepancyType) : Json := .text t.name

end DiscrepancyType

/-! ## 2. Discrepancies -/

structure Discrepancy where
  id : Uuid
  exchange : ExchangeId
  type : DiscrepancyType
  severity : Severity
  /-- The asset, order id, symbol or category that the divergence is about. -/
  entity : String
  expected : Option String
  actual : Option String
  description : String
  detectedAt : Instant
  deriving DecidableEq

namespace Discrepancy

/-- The namespace of the ids. -/
def idSpace : Uuid := .ofNat 0x5f1c7a2e8d444b9ab1e30c6f2a9d7e51

/-- The content that an id stands for. -/
def fingerprint (exchange : ExchangeId) (type : DiscrepancyType) (entity : String)
    (expected actual : Option String) (detectedAt : Instant) : String :=
  "|".intercalate [exchange.text, type.name, entity, expected.getD "-", actual.getD "-",
    detectedAt.toOffsetText]

/-- A discrepancy with the id of its content. -/
def new (exchange : ExchangeId) (type : DiscrepancyType) (severity : Severity) (entity : String)
    (expected actual : Option String) (description : String) (detectedAt : Instant) :
    Discrepancy :=
  { id := .named idSpace (fingerprint exchange type entity expected actual detectedAt)
    exchange, type, severity, entity, expected, actual, description, detectedAt }

def isCritical (d : Discrepancy) : Bool := d.severity = .critical

/-! ## 3. Order -/

/-- The comparison by exchange, type, entity and id. -/
def compareKeys (a b : Discrepancy) : Ordering :=
  (compare a.exchange b.exchange).then <|
  (compare a.type.rank b.type.rank).then <|
  (compare a.entity b.entity).then <|
  compare a.id b.id

/-- Report order.  Discrepancies that compare alike keep their places. -/
def sort (l : List Discrepancy) : List Discrepancy :=
  l.mergeSort fun a b => (compareKeys a b).isLE

/-! ## 4. Records -/

def ofJson? (j : Json) : Option Discrepancy :=
  j.readRecord do
    let id ← .required "id" Uuid.ofJson?
    let exchange ← .required "exchange_id" (Identifier.ofJson? .exchange)
    let type ← .required "type" DiscrepancyType.ofJson?
    let severity ← .required "severity" Severity.ofJson?
    let entity ← .required "entity_key" Json.asText?
    let expected ← .optional "expected_value" Json.asText?
    let actual ← .optional "actual_value" Json.asText?
    let description ← .required "description" Json.asText?
    let detectedAt ← .required "detected_at" Instant.ofJson?
    return ⟨id, exchange, type, severity, entity, expected, actual, description, detectedAt⟩

/-- The members that do not depend on when the discrepancy was found. -/
def timelessMembers (d : Discrepancy) : List (String × Json) :=
  [("exchange_id", d.exchange.toJson),
    ("type", d.type.toJson),
    ("severity", d.severity.toJson),
    ("entity_key", .text d.entity),
    ("expected_value", .ofOption .text d.expected),
    ("actual_value", .ofOption .text d.actual),
    ("description", .text d.description)]

def toJson (d : Discrepancy) : Json :=
  .object (("id", d.id.toJson) :: d.timelessMembers ++ [("detected_at", d.detectedAt.toJson)])

end Discrepancy

end Reconciliation
