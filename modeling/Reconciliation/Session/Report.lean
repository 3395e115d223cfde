/-
# Reports

A report is a closed session with the figures derived from it.

* `Report.ofSession`: closes a session, never before it started;
* `Session.finalStatus`: completed if every exchange was, partial if not all, failed if there is
  nothing to rely on.
-/
import Reconciliation.Session.Basic
import Reconciliation.Numeric.Binary64

namespace Reconciliation

/-! ## 1. Closing a session -/

/-- The status of a session that ends now. -/
def Session.finalStatus (s : Session) : SessionStatus :=
  if s.cancelled || s.ledgerVersion.isNone || s.checked.isEmpty then .failed
  else if s.outcomes.values.all (· = .complete) then .completed
  else .partiallyCompleted

/-- The session, ended at an instant or at its start if that is later. -/
def Session.finish (s : Session) (time : Instant) : Session :=
  { s with endTime := some (time.max s.startTime), status := s.finalStatus }

/-- Whole milliseconds as seconds. -/
def secondsOfMillis (ms : Int) : Binary64 :=
  let quotient := do
    let n ← Binary64.ofRatio? (decide (ms < 0)) ms.natAbs 1
    n.div? (← Binary64.ofNat? 1000)
  quotient.getD .zero

/-! ## 2. Reports -/

structure ReportSummary where
  total : Nat
  critical : Nat
  warning : Nat
  info : Nat
  durationSeconds : Binary64
  checked : SortedSet ExchangeId
  deriving DecidableEq

/-- The number of discrepancies of a severity. -/
def countSeverity (s : Severity) (l : List Discrepancy) : Nat :=
  l.countP (·.severity = s)

namespace ReportSummary

/-- The figures of a session that ended at an instant. -/
def ofSession (s : Session) (time : Instant) : ReportSummary :=
  { total := s.discrepancies.length
    critical := countSeverity .critical s.discrepancies
    warning := countSeverity .warning s.discrepancies
    info := countSeverity .info s.discrepancies
    durationSeconds := secondsOfMillis (s.startTime.millisUntil time)
    checked := s.checked }

def ofJson? (j : Json) : Option ReportSummary :=
  j.readRecord do
    let total ← .required "total_discrepancies" Json.asNat64?
    let critical ← .required "critical_count" Json.asNat64?
    let warning ← .required "warning_count" Json.asNat64?
    let info ← .required "info_count" Json.asNat64?
    let durationSeconds ← .required "duration_seconds" Json.asReal?
    let checked ← .required "exchanges_checked" (·.asList? (Identifier.ofJson? .exchange))
    return ⟨total, critical, warning, info, durationSeconds, SortedSet.ofKeys checked⟩

/-- The counts by severity. -/
def countMembers (s : ReportSummary) : List (String × Json) :=
  [("total_discrepancies", .ofNat s.total),
    ("critical_count", .ofNat s.critical),
    ("warning_count", .ofNat s.warning),
    ("info_count", .ofNat s.info)]

def toJson (s : ReportSummary) : Json :=
  .object (s.countMembers ++ [
    ("duration_seconds", .ofReal s.durationSeconds),
    ("exchanges_checked", Session.checkedJson s.checked)])

end ReportSummary

structure Report where
  session : Session
  summary : ReportSummary
  deriving DecidableEq

namespace Report

/-- Closes a session at an instant. -/
def ofSession (s : Session) (time : Instant) : Report :=
  ⟨s.finish time, .ofSession s (time.max s.startTime)⟩

def id (r : Report) : Uuid := r.session.id

def status (r : Report) : SessionStatus := r.session.status

def startedAt (r : Report) : Instant := r.session.startTime

def finishedAt (r : Report) : Instant := r.session.endTime.getD r.session.startTime

def discrepancies (r : Report) : List Discrepancy := r.session.discrepancies

/-- The critical discrepancies, in report order. -/
def criticalDiscrepancies (r : Report) : List Discrepancy :=
  r.discrepancies.filter (·.isCritical)

def ofJson? (j : Json) : Option Report :=
  j.readRecord do
    return ⟨← .required "session" Session.ofJson?, ← .required "summary" ReportSummary.ofJson?⟩

def toJson (r : Report) : Json :=
  .object [("session", r.session.toJson), ("summary", r.summary.toJson)]

/-- What a report says apart from ids and times. -/
def timelessMembers (r : Report) : List (String × Json) :=
  let s := r.session
  [("status", s.status.toJson),
    ("exchanges_checked", Session.checkedJson s.checked),
    ("outcomes", .object (s.outcomes.entries.map fun (e, o) => (e.text, o.toJson))),
    ("discrepancies", .array (s.discrepancies.map fun d => .object d.timelessMembers)),
    ("counts", .array (r.summary.countMembers.map (·.2))),
    ("ledger_version", .ofOption .ofNat s.ledgerVersion),
    ("cancelled", .bool s.cancelled),
    ("notes", .array (s.notes.map .text))]

/-- A flat view of the figures. -/
def summaryMembers (r : Report) : List (String × Json) :=
  [("session_id", r.id.toJson), ("status", .text r.status.name)] ++ r.summary.countMembers ++
    [("duration_seconds", .ofReal r.summary.durationSeconds),
      ("exchanges_checked", Session.checkedJson r.summary.checked),
      ("started_at", .text r.startedAt.toOffsetText),
      ("finished_at", .text r.finishedAt.toOffsetText)]

end Report

end Reconciliation
