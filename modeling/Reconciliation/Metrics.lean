/-
# Metrics of sessions

Counts of sessions and discrepancies, a histogram of durations and the last outcome of each
exchange, kept up to date from the reports.  A reader gets them as families of samples.

* `SessionMetrics.observe`: takes a report;
* `SessionMetrics.families`: all families that have a sample.
-/
import Reconciliation.Session.Delivery

namespace Reconciliation

/-! ## 1. Histograms -/

/-- A histogram over fixed upper bounds. -/
structure Histogram where
  /-- The upper bounds, each with the number of values that are not above it. -/
  buckets : List (Binary64 × Nat)
  count : Nat
  /-- The sum of the values, nothing once it is out of range. -/
  sum : Option Binary64

namespace Histogram

/-- The upper bounds of a histogram of seconds, from 5 milliseconds to 10 seconds. -/
def secondBounds : List Binary64 :=
  [5, 10, 25, 50, 100, 250, 500, 1000, 2500, 5000, 10000].filterMap (Binary64.ofRatio? false · 1000)

def empty (bounds : List Binary64) : Histogram := ⟨bounds.map (·, 0), 0, some .zero⟩

def observe (h : Histogram) (x : Binary64) : Histogram :=
  { buckets := h.buckets.map fun (bound, n) => (bound, if x.le bound then n + 1 else n)
    count := h.count + 1
    sum := h.sum.bind (·.add? x) }

end Histogram

/-! ## 2. The metrics -/

structure SessionMetrics where
  /-- The reports by the name of their status. -/
  sessions : SortedMap String Nat
  /-- The discrepancies by the name of their severity. -/
  discrepancies : SortedMap String Nat
  durations : Histogram
  /-- Whether the last collection from an exchange brought anything. -/
  connections : SortedMap String Bool

namespace SessionMetrics

def empty : SessionMetrics := ⟨.empty, .empty, .empty Histogram.secondBounds, .empty⟩

instance : Inhabited SessionMetrics := ⟨empty⟩

/-- Adds to a counter of 64 bits. -/
def count (counters : SortedMap String Nat) (name : String) (n : Nat) : SortedMap String Nat :=
  counters.update name 0 fun old => (old + n) % wordCount

def setConnection (m : SessionMetrics) (exchange : String) (connected : Bool) : SessionMetrics :=
  { m with connections := m.connections.insert exchange connected }

/-- Takes a report.  All severities are counted, also those that do not occur. -/
def observe (m : SessionMetrics) (r : Report) : SessionMetrics :=
  let counts :=
    [(Severity.critical, r.summary.critical), (.warning, r.summary.warning),
      (.info, r.summary.info)]
  let m := { m with
    sessions := count m.sessions r.status.name 1
    discrepancies := counts.foldl (fun d (s, n) => count d s.name n) m.discrepancies
    durations := m.durations.observe r.summary.durationSeconds }
  r.session.outcomes.entries.foldl (fun m (e, o) => m.setConnection e.text (o != .failed)) m

/-- The metrics as a sink of reports. -/
def sink : ReportSink (StateM SessionMetrics) where
  publish r := do
    modify (·.observe r)
    return .ok ()
  escalate _ _ := return .ok ()

end SessionMetrics

/-! ## 3. Families of samples -/

/-- What is known about one thing. -/
inductive MetricSample
  /-- A value under one label. -/
  | value (label text : String) (x : Binary64)
  | histogram (h : Histogram)

structure MetricFamily where
  name : String
  help : String
  samples : List MetricSample

namespace MetricFamily

/-- A family with one sample for each value of a label. -/
def labelled (name help label : String) (values : SortedMap String Nat) : MetricFamily :=
  ⟨name, help, values.entries.map fun (text, n) =>
    .value label text ((Binary64.ofNat? n).getD .zero)⟩

end MetricFamily

/-- All families that have a sample, by name. -/
def SessionMetrics.families (m : SessionMetrics) : List MetricFamily :=
  [.labelled "tesser_exchange_connection_status"
      "Outcome of the last collection per exchange (1=collected, 0=failed)" "exchange"
      (m.connections.mapValues fun _ b => b.toNat),
    .labelled "tesser_reconciliation_discrepancies_total"
      "Discrepancies reported by severity" "severity" m.discrepancies,
    ⟨"tesser_reconciliation_session_duration_seconds",
      "Wall-clock duration of reconciliation sessions", [.histogram m.durations]⟩,
    .labelled "tesser_reconciliation_sessions_total"
      "Finalized reconciliation sessions by status" "status" m.sessions].filter
    fun f => !f.samples.isEmpty

end Reconciliation
