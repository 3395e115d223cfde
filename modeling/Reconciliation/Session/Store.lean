/-
# Stores of reports

A store keeps finished reports, one a session, and never replaces one.  There are two: a map of
reports, and a table whose rows hold text keys and the report as JSON text.

* `ReportMap`, `ReportTable`: `append`, `get` and `recent` of either.
-/
import Reconciliation.Json.Printer
import Reconciliation.Json.Reader
import Reconciliation.Session.Report
import Reconciliation.Session.Error
import Reconciliation.Ledger.Journal

namespace Reconciliation

/-- Only a finished report may be stored. -/
def Report.ensureFinal (r : Report) : Except ReconciliationError Unit :=
  if r.status.isFinal then return () else throw (.unfinishedReport r.id r.status)

/-! ## 1. A map of reports -/

abbrev ReportMap := SortedMap Uuid Report

namespace ReportMap

def append (m : ReportMap) (r : Report) : Except ReconciliationError ReportMap := do
  r.ensureFinal
  if m.contains r.id then throw (.alreadyStored r.id) else return m.insert r.id r

def get (m : ReportMap) (id : Uuid) : Option Report := m.get? id

/-- The reports that started last, the latest first. -/
def recent (m : ReportMap) (limit : Nat) : List Report :=
  (m.values.mergeSort fun a b => b.startedAt ≤ a.startedAt).take limit

end ReportMap

/-! ## 2. A table of reports -/

structure ReportRow where
  sessionId : String
  startedAt : String
  /-- The report as JSON text. -/
  payload : String

namespace ReportRow

def ofReport (r : Report) : ReportRow :=
  ⟨r.id.toText, r.startedAt.toOffsetText, r.toJson.compact⟩

def toReport (row : ReportRow) : Except ReconciliationError Report :=
  match (Json.ofText? row.payload).bind Report.ofJson? with
  | some r => .ok r
  | none => .error (.storage s!"unreadable report of session {row.sessionId}")

def ofJson? (j : Json) : Option ReportRow :=
  j.readRecord do
    return ⟨← .required "session_id" Json.asText?, ← .required "started_at" Json.asText?,
      ← .required "payload" Json.asText?⟩

def toJson (row : ReportRow) : Json :=
  .object [
    ("session_id", .text row.sessionId),
    ("started_at", .text row.startedAt),
    ("payload", .text row.payload)]

end ReportRow

/-- The rows, the last stored first. -/
structure ReportTable where
  rows : List ReportRow

namespace ReportTable

def empty : ReportTable := ⟨[]⟩

def append (t : ReportTable) (r : Report) : Except ReconciliationError ReportTable := do
  r.ensureFinal
  let row := ReportRow.ofReport r
  if t.rows.any (·.sessionId == row.sessionId) then throw (.alreadyStored r.id)
  else return ⟨row :: t.rows⟩

def get (t : ReportTable) (id : Uuid) : Except ReconciliationError (Option Report) :=
  (t.rows.find? (·.sessionId == id.toText)).mapM (·.toReport)

/-- The reports that started last by the text of their start, the latest first.  A limit that is
negative as a signed word is none. -/
def recent (t : ReportTable) (limit : Nat) : Except ReconciliationError (List Report) :=
  let rows := t.rows.mergeSort fun a b => b.startedAt ≤ a.startedAt
  (if signedWord limit < 0 then rows else rows.take limit).mapM (·.toReport)

end ReportTable

end Reconciliation
