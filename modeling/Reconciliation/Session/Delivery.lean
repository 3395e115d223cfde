/-
# Delivering a report

A finished report goes to the store and then to every sink.  None of them can keep it from the
others, or from the caller: their failures are only told to them.

* `Report.deliver`: in any monad, so that what the consumers do stays open;
* `Report.issue`: what the caller gets.
-/
import Reconciliation.Session.Report
import Reconciliation.Session.Error

namespace Reconciliation

/-- A destination of reports. -/
structure ReportSink (m : Type → Type) where
  /-- Takes every report. -/
  publish : Report → m (Except ReconciliationError Unit)
  /-- Takes the critical discrepancies of a report that has some. -/
  escalate : Report → List Discrepancy → m (Except ReconciliationError Unit)

/-- How the storing of a report ends, which is a task of its own. -/
inductive StoreOutcome
  | stored
  | refused (error : ReconciliationError)
  /-- The task broke off. -/
  | lost
  deriving DecidableEq

variable {m : Type → Type} [Monad m]

/-- Tells one sink. -/
def ReportSink.deliver (sink : ReportSink m) (r : Report) : m Unit := do
  let _ ← sink.publish r
  if !r.criticalDiscrepancies.isEmpty then
    let _ ← sink.escalate r r.criticalDiscrepancies

/-- Stores a report and tells all sinks, in order. -/
def Report.deliver (store : Option (Report → m StoreOutcome)) (sinks : List (ReportSink m))
    (r : Report) : m Unit := do
  if let some append := store then
    let _ ← append r
  sinks.forM (·.deliver r)

/-- Delivers a report, and returns it. -/
def Report.issue (store : Option (Report → m StoreOutcome)) (sinks : List (ReportSink m))
    (r : Report) : m Report := do
  r.deliver store sinks
  return r

end Reconciliation
