/-
# Sessions

A session collects the outcome of each exchange and the discrepancies found, and is later closed
into a report.

* `Session.recordExchange`, `Session.recordFailure`: the outcome of one exchange.
-/
import Reconciliation.Compare.Snapshot
import Reconciliation.Compare.Discrepancy

namespace Reconciliation

/-! ## 1. Status and outcome -/

inductive SessionStatus
  | inProgress
  | completed
  | partiallyCompleted
  | failed
  deriving DecidableEq, Repr

namespace SessionStatus

def all : List SessionStatus := [.inProgress, .completed, .partiallyCompleted, .failed]

def name : SessionStatus → String
  | .inProgress => "IN_PROGRESS"
  | .completed => "COMPLETED"
  | .partiallyCompleted => "PARTIAL"
  | .failed => "FAILED"

/-- Whether the session is over. -/
def isFinal (s : SessionStatus) : Bool := s != .inProgress

def ofJson? (j : Json) : Option SessionStatus := j.asName?.bind fun n => all.find? (·.name = n)

def toJson (s : SessionStatus) : Json := .text s.name

end SessionStatus

/-- How the collection from an exchange went. -/
inductive ExchangeOutcome
  | complete
  | degraded
  | failed
  deriving DecidableEq, Repr

namespace ExchangeOutcome

def all : List ExchangeOutcome := [.complete, .degraded, .failed]

def name : ExchangeOutcome → String
  | .complete => "complete"
  | .degraded => "degraded"
  | .failed => "failed"

def ofSnapshot (s : ExchangeSnapshot) : ExchangeOutcome :=
  if s.isComplete then .complete else if s.isUsable then .degraded else .failed

def ofJson? (j : Json) : Option ExchangeOutcome := j.asName?.bind fun n => all.find? (·.name = n)

def toJson (o : ExchangeOutcome) : Json := .text o.name

end ExchangeOutcome

/-! ## 2. Sessions -/

structure Session where
  id : Uuid
  startTime : Instant
  endTime : Option Instant
  status : SessionStatus
  /-- The exchanges that gave a usable snapshot. -/
  checked : SortedSet ExchangeId
  outcomes : SortedMap ExchangeId ExchangeOutcome
  /-- In report order. -/
  discrepancies : List Discrepancy
  /-- The version of the ledger that was compared with, if one could be read. -/
  ledgerVersion : Option Nat
  cancelled : Bool
  notes : List String
  deriving DecidableEq

namespace Session

def start (id : Uuid) (time : Instant) : Session :=
  { id, startTime := time, endTime := none, status := .inProgress, checked := .empty,
    outcomes := .empty, discrepancies := [], ledgerVersion := none, cancelled := false,
    notes := [] }

/-- Records what came of an exchange, with the discrepancies found in it. -/
def recordExchange (s : Session) (snapshot : ExchangeSnapshot) (found : List Discrepancy) :
    Session :=
  let outcome := ExchangeOutcome.ofSnapshot snapshot
  { s with
    checked := if outcome = .failed then s.checked else SortedSet.add s.checked snapshot.exchange
    outcomes := s.outcomes.insert snapshot.exchange outcome
    discrepancies :=
      if found.isEmpty then s.discrepancies else Discrepancy.sort (s.discrepancies ++ found) }

/-- Records an exchange that gave nothing usable. -/
def recordFailure (s : Session) (exchange : ExchangeId) : Session :=
  { s with
    checked := s.checked.erase exchange
    outcomes := s.outcomes.insert exchange .failed }

def addNote (s : Session) (note : String) : Session := { s with notes := s.notes ++ [note] }

/-- Marks the session as cancelled, with one note. -/
def markCancelled (s : Session) : Session :=
  if s.cancelled then s
  else { s with cancelled := true }.addNote "session cancelled before completion"

def ofJson? (j : Json) : Option Session :=
  j.readRecord do
    let id ← .required "id" Uuid.ofJson?
    let startTime ← .required "start_time" Instant.ofJson?
    let endTime ← .optional "end_time" Instant.ofJson?
    let status ← .required "status" SessionStatus.ofJson?
    let checked ← .required "exchanges_checked" (·.asList? (Identifier.ofJson? .exchange))
    let outcomes ← .required "exchange_outcomes"
      (·.asMembers? (Identifier.ofText? .exchange) ExchangeOutcome.ofJson?)
    let discrepancies ← .required "discrepancies" (·.asList? Discrepancy.ofJson?)
    let ledgerVersion ← .optional "ledger_version" Json.asNat64?
    let cancelled ← .required "cancelled" Json.asBool?
    let notes ← .required "notes" (·.asList? Json.asText?)
    return ⟨id, startTime, endTime, status, SortedSet.ofKeys checked, .ofList outcomes,
      discrepancies, ledgerVersion, cancelled, notes⟩

/-- The checked exchanges, in order. -/
def checkedJson (s : SortedSet ExchangeId) : Json :=
  .array ((SortedSet.toList s).map (·.toJson))

def outcomesJson (s : Session) : Json :=
  .object (s.outcomes.entries.map fun (e, o) => (e.text, o.toJson))

def toJson (s : Session) : Json :=
  .object [
    ("id", s.id.toJson),
    ("start_time", s.startTime.toJson),
    ("end_time", .ofOption Instant.toJson s.endTime),
    ("status", s.status.toJson),
    ("exchanges_checked", checkedJson s.checked),
    ("exchange_outcomes", s.outcomesJson),
    ("discrepancies", .array (s.discrepancies.map (·.toJson))),
    ("ledger_version", .ofOption .ofNat s.ledgerVersion),
    ("cancelled", .bool s.cancelled),
    ("notes", .array (s.notes.map .text))]

end Session

end Reconciliation
