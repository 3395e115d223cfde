/-
# Reports agree with their sessions

What a report says of its session is derived in several places: the end and the status when the
session is closed, the figures beside it, the critical discrepancies when they are asked for, and
the flat view from all of these.  They agree, whatever the session holds and whenever it is closed,
and closing it once more changes nothing but its end.

* `countSeverity_add`: every discrepancy is counted under one severity;
* `sublist_filter_iff`: what is kept of a list is the longest part of it that may be kept;
* `Report.AgreesWith`, `Session.report_agrees`: the report.
-/
import Reconciliation.Proofs.Session.Accounting

namespace Reconciliation

/-! ## 1. Counts and parts -/

theorem countSeverity_add (l : List Discrepancy) :
    countSeverity .critical l + countSeverity .warning l + countSeverity .info l = l.length := by
  induction l with
  | nil => rfl
  | cons d rest ih =>
    simp only [countSeverity, List.countP_cons, List.length_cons] at ih ⊢
    cases d.severity <;> simp <;> omega

/-- What is kept of a list is the longest part of it that may be kept. -/
theorem sublist_filter_iff {α : Type} {p : α → Bool} {l m : List α} :
    m.Sublist (l.filter p) ↔ m.Sublist l ∧ ∀ a ∈ m, p a = true := by
  constructor
  · intro h
    exact ⟨h.trans List.filter_sublist, fun a ha => (List.mem_filter.1 (h.subset ha)).2⟩
  · rintro ⟨h, hp⟩
    have hfilter := h.filter p
    rwa [List.filter_eq_self.2 hp] at hfilter

/-! ## 2. The report of a session -/

/-- `r.AgreesWith s time`: the report is of the session as closed at the time, or at its start if
that is later, and all that it says is said of that session. -/
structure Report.AgreesWith (r : Report) (s : Session) (time : Instant) : Prop where
  final : r.status.isFinal = true
  endTime : r.session.endTime = some (time.max s.startTime)
  /-- Nothing but the end and the status is changed. -/
  frame : { r.session with endTime := s.endTime, status := s.status } = s
  total : r.summary.total = s.discrepancies.length
  total_eq_add : r.summary.total = r.summary.critical + r.summary.warning + r.summary.info
  warning : r.summary.warning = (s.discrepancies.filter (·.severity = .warning)).length
  info : r.summary.info = (s.discrepancies.filter (·.severity = .info)).length
  /-- The critical discrepancies are the longest part of the report that is all critical. -/
  critical : ∀ l : List Discrepancy, l.Sublist r.criticalDiscrepancies ↔
    l.Sublist r.discrepancies ∧ ∀ d ∈ l, d.severity = .critical
  length_critical : r.criticalDiscrepancies.length = r.summary.critical
  /-- The flat view names each of its figures once. -/
  names : (r.summaryMembers.map (·.1)).Nodup
  counts : Json.lookup "total_discrepancies" r.summaryMembers = some (.ofNat r.summary.total) ∧
    Json.lookup "critical_count" r.summaryMembers = some (.ofNat r.summary.critical) ∧
    Json.lookup "warning_count" r.summaryMembers = some (.ofNat r.summary.warning) ∧
    Json.lookup "info_count" r.summaryMembers = some (.ofNat r.summary.info)
  /-- It lists the checked exchanges in order. -/
  checked : ∃ l : List ExchangeId,
    Json.lookup "exchanges_checked" r.summaryMembers = some (.array (l.map (·.toJson))) ∧
      l.Pairwise (fun a b => compare a b = .lt) ∧ ∀ e, e ∈ l ↔ e ∈ s.checked.toList
  /-- It says when the session started and ended, and the end is not the earlier of the two. -/
  times : ∃ finish : Instant, s.startTime ≤ finish ∧ r.finishedAt = finish ∧
    Json.lookup "started_at" r.summaryMembers = some (.text s.startTime.toOffsetText) ∧
    Json.lookup "finished_at" r.summaryMembers = some (.text finish.toOffsetText)
  /-- Closing the session once more leaves its status and its figures. -/
  again : ∀ time', (Report.ofSession r.session time').status = r.status ∧
    (Report.ofSession r.session time').summary.total = r.summary.total ∧
    (Report.ofSession r.session time').summary.critical = r.summary.critical ∧
    (Report.ofSession r.session time').summary.warning = r.summary.warning ∧
    (Report.ofSession r.session time').summary.info = r.summary.info

namespace Session

/-- The status that a session ends with does not depend on an end that it already has. -/
theorem finalStatus_finish (s : Session) (time : Instant) :
    (s.finish time).finalStatus = s.finalStatus := rfl

/-- **A report agrees with its session**, whatever the session holds and whenever it is closed. -/
theorem report_agrees (s : Session) (time : Instant) :
    (Report.ofSession s time).AgreesWith s time where
  final := s.isFinal_finalStatus
  endTime := rfl
  frame := rfl
  total := rfl
  total_eq_add := (countSeverity_add s.discrepancies).symm
  warning := List.countP_eq_length_filter
  info := List.countP_eq_length_filter
  critical l := by
    have hcritical : ∀ d : Discrepancy, d.isCritical = true ↔ d.severity = .critical := fun d =>
      decide_eq_true_iff
    rw [Report.criticalDiscrepancies, sublist_filter_iff]
    simp only [hcritical]
  length_critical := List.countP_eq_length_filter.symm
  names := by
    show ["session_id", "status", "total_discrepancies", "critical_count", "warning_count",
      "info_count", "duration_seconds", "exchanges_checked", "started_at", "finished_at"].Nodup
    decide
  counts := ⟨rfl, rfl, rfl, rfl⟩
  checked := ⟨s.checked.toList, rfl, List.pairwise_map.2 s.checked.sorted, fun _ => Iff.rfl⟩
  times := ⟨time.max s.startTime, Instant.le_max_right _ _, rfl, rfl, rfl⟩
  again time' := ⟨s.finalStatus_finish time, rfl, rfl, rfl, rfl⟩

end Session

end Reconciliation
