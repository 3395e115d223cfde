/-
# Time in a session

A snapshot carries the time at which it was taken, by a clock that may have been put back since the
snapshot before.  A session takes such a time forward to the last one that it has seen, whichever
way the snapshot goes: compared at once, after a wait for the ledger, without a ledger, or put in
for an exchange that gave none before the deadline.  So within a session time never goes back,
whatever the clock does, and all that is found in an exchange has the one time that its snapshot
was given.

A run is followed here as it is, and the snapshots that it processes are listed with the times
that it gives them, up to the step that breaks it off if there is one.

* `SessionRun.trace`: what the steps of a loop process;
* `SessionRun.KeepsTime.pairwise_trace`: it is in the order of time if every step keeps time;
* `SessionPlan.processed`: what a whole run processes;
* `SessionPlan.Course.processed_eq`: if there is a report, this is what it is made of;
* `SessionPlan.Course.keeps_time`: time in a session and in its report.
-/
import Reconciliation.Proofs.Session.Accounting
import Reconciliation.Proofs.Session.Containment

namespace Reconciliation

/-! ## 1. The steps of a loop -/

namespace SessionRun

section Trace

variable {α : Type} {step : SessionRun → α → Except Decimal.Overflow SessionRun}
  {given : SessionRun → α → Option ExchangeSnapshot} {r r' : SessionRun} {a : α} {l : List α}
  {x : ExchangeSnapshot}

/-- The snapshots that a run processes in a loop, in order and with the times that it gives them.
What a step gives the run is `given`; a step that fails is the last one. -/
def trace (step : SessionRun → α → Except Decimal.Overflow SessionRun)
    (given : SessionRun → α → Option ExchangeSnapshot) :
    SessionRun → List α → List ExchangeSnapshot
  | _, [] => []
  | r, a :: rest =>
    ((given r a).map r.stamp).toList ++
      match step r a with
      | .ok r' => trace step given r' rest
      | .error _ => []

/-- Every step remembers the time of the snapshot that it processes, if it is given one. -/
def KeepsTime (step : SessionRun → α → Except Decimal.Overflow SessionRun)
    (given : SessionRun → α → Option ExchangeSnapshot) : Prop :=
  ∀ r a r', step r a = .ok r' →
    r'.lastCaptured = ((given r a).map fun x => (r.stamp x).capturedAt).getD r.lastCaptured

theorem trace_cons_of_ok (h : step r a = .ok r') :
    trace step given r (a :: l) = ((given r a).map r.stamp).toList ++ trace step given r' l := by
  rw [trace, h]

namespace KeepsTime

/-- One step does not set the time of a run back. -/
theorem le_step (h : KeepsTime step given) (hr : step r a = .ok r') :
    r.lastCaptured ≤ r'.lastCaptured := by
  rw [h r a r' hr]
  cases given r a with
  | none => exact Instant.le_refl _
  | some x => exact Instant.le_max_right _ _

/-- Nor does a loop. -/
theorem le_loop (h : KeepsTime step given) (hr : l.foldlM step r = .ok r') :
    r.lastCaptured ≤ r'.lastCaptured := by
  induction l generalizing r with
  | nil =>
    cases hr
    exact Instant.le_refl _
  | cons a rest ih =>
    rw [List.foldlM_cons, bind_eq_ok_iff] at hr
    obtain ⟨r₁, hr₁, hrest⟩ := hr
    exact Instant.le_trans (h.le_step hr₁) (ih hrest)

/-- What a step processes is not earlier than the run before it, nor later than the run after. -/
theorem le_of_mem_step (h : KeepsTime step given) (hx : x ∈ ((given r a).map r.stamp).toList) :
    r.lastCaptured ≤ x.capturedAt ∧ ∀ r', step r a = .ok r' → x.capturedAt ≤ r'.lastCaptured := by
  rw [Option.mem_toList, Option.map_eq_some_iff] at hx
  obtain ⟨y, hy, rfl⟩ := hx
  refine ⟨Instant.le_max_right _ _, fun r' hr => ?_⟩
  rw [h r a r' hr, hy]
  exact Instant.le_refl _

/-- Nothing is processed before the time of the run. -/
theorem le_of_mem_trace (h : KeepsTime step given) (hx : x ∈ trace step given r l) :
    r.lastCaptured ≤ x.capturedAt := by
  induction l generalizing r with
  | nil => cases hx
  | cons a rest ih =>
    rw [trace, List.mem_append] at hx
    rcases hx with hx | hx
    · exact (h.le_of_mem_step hx).1
    · split at hx
      · rename_i r' hr
        exact Instant.le_trans (h.le_step hr) (ih hx)
      · cases hx

/-- Nothing is processed after the time of the run in the end. -/
theorem mem_trace_le (h : KeepsTime step given) (hr : l.foldlM step r = .ok r')
    (hx : x ∈ trace step given r l) : x.capturedAt ≤ r'.lastCaptured := by
  induction l generalizing r with
  | nil => cases hx
  | cons a rest ih =>
    rw [List.foldlM_cons, bind_eq_ok_iff] at hr
    obtain ⟨r₁, hr₁, hrest⟩ := hr
    rw [trace_cons_of_ok hr₁, List.mem_append] at hx
    rcases hx with hx | hx
    · exact Instant.le_trans ((h.le_of_mem_step hx).2 r₁ hr₁) (h.le_loop hrest)
    · exact ih hrest hx

/-- **What is processed in a loop is in the order of time**, if every step keeps time. -/
theorem pairwise_trace (h : KeepsTime step given) :
    (trace step given r l).Pairwise fun x y => x.capturedAt ≤ y.capturedAt := by
  induction l generalizing r with
  | nil => exact .nil
  | cons a rest ih =>
    rw [trace, List.pairwise_append]
    refine ⟨?_, ?_, fun x hx y hy => ?_⟩
    · cases given r a with
      | none => exact .nil
      | some x => exact List.pairwise_singleton _ _
    · split
      · exact ih
      · exact .nil
    · split at hy
      · rename_i r' hr
        exact Instant.le_trans ((h.le_of_mem_step hx).2 r' hr) (h.le_of_mem_trace hy)
      · cases hy

end KeepsTime

end Trace

/-! ## 2. Completions, and exchanges that are left over -/

variable {t : Tolerances} {interruption : Option Interruption} {now : ExchangeId → Instant}
  {r r' : SessionRun} {cs : List Completion} {exchanges : List ExchangeId}

theorem keepsTime_complete (t : Tolerances) :
    KeepsTime (complete t) fun _ c => c.snapshot? := by
  intro r c r' hr
  cases c with
  | collected x =>
    unfold complete collect at hr
    dsimp only at hr
    split at hr
    · obtain ⟨s, -, hs⟩ := bind_eq_ok_iff.1 hr
      cases hs
      rfl
    · cases hr
      rfl
    · cases hr
      rfl
  | ledgerRead ledger =>
    obtain ⟨s, -, hs⟩ := bind_eq_ok_iff.1 hr
    cases hs
    rfl
  | ledgerFailed error =>
    cases hr
    rfl
  | lost =>
    cases hr
    rfl

/-- The snapshot that is put in for an exchange without an outcome, after a deadline. -/
def standIn (interruption : Option Interruption) (now : ExchangeId → Instant) (r : SessionRun)
    (exchange : ExchangeId) : Option ExchangeSnapshot :=
  match interruption with
  | some (.deadline _) =>
    if r.session.outcomes.contains exchange then none
    else some (.unavailable exchange (now exchange) unfinishedError)
  | _ => none

theorem standIn_of_known {e : ExchangeId} (h : r.session.outcomes.contains e = true) :
    standIn interruption now r e = none := by
  unfold standIn
  split
  · exact if_pos h
  · rfl

theorem standIn_of_ne {e : ExchangeId} (hi : ∀ limit, interruption ≠ some (.deadline limit)) :
    standIn interruption now r e = none := by
  unfold standIn
  split
  · exact absurd rfl (hi _)
  · rfl

theorem keepsTime_account (t : Tolerances) (interruption : Option Interruption)
    (now : ExchangeId → Instant) :
    KeepsTime (account t interruption now) (standIn interruption now) := by
  intro r e r' hr
  cases hknown : r.session.outcomes.contains e with
  | true =>
    rw [account_known hknown] at hr
    cases hr
    rw [standIn_of_known hknown]
    rfl
  | false =>
    rcases deadline_or interruption with ⟨limit, rfl⟩ | hi
    · rw [account_deadline hknown] at hr
      cases hr
      rw [standIn, hknown]
      rfl
    · rw [account_failed hi hknown] at hr
      cases hr
      rw [standIn_of_ne hi]
      rfl

/-- A loop over completions processes their snapshots. -/
theorem trace_complete (hr : cs.foldlM (complete t) r = .ok r') :
    trace (complete t) (fun _ c => c.snapshot?) r cs =
      ExchangeSnapshot.taken r.lastCaptured (Completion.snapshots cs) := by
  induction cs generalizing r with
  | nil => rfl
  | cons c rest ih =>
    rw [List.foldlM_cons, bind_eq_ok_iff] at hr
    obtain ⟨r₁, hr₁, hrest⟩ := hr
    have htime := keepsTime_complete t r c r₁ hr₁
    dsimp only at htime
    rw [trace_cons_of_ok hr₁, ih hrest, htime, Completion.snapshots, Completion.snapshots]
    cases hc : c.snapshot? with
    | none =>
      rw [List.filterMap_cons_none hc]
      rfl
    | some x =>
      rw [List.filterMap_cons_some hc, ExchangeSnapshot.taken_cons]
      rfl

/-- Without a deadline, nothing is put in for exchanges that are left. -/
theorem trace_account (hi : ∀ limit, interruption ≠ some (.deadline limit)) :
    trace (account t interruption now) (standIn interruption now) r exchanges = [] := by
  induction exchanges generalizing r with
  | nil => rfl
  | cons e rest ih =>
    rw [trace, standIn_of_ne hi, Option.map_none, Option.toList_none, List.nil_append]
    split
    · exact ih
    · rfl

/-- After a deadline, a snapshot of nothing is put in for each of them, in their order. -/
theorem trace_account_deadline {limit : Span} (hnodup : exchanges.Nodup) :
    trace (account t (some (.deadline limit)) now) (standIn (some (.deadline limit)) now) r
        exchanges =
      ExchangeSnapshot.taken r.lastCaptured
        ((leftOver r.session exchanges).map fun e => .unavailable e (now e) unfinishedError) := by
  induction exchanges generalizing r with
  | nil => rfl
  | cons e rest ih =>
    obtain ⟨he, hrest⟩ := List.nodup_cons.1 hnodup
    cases hknown : r.session.outcomes.contains e with
    | true =>
      rw [trace_cons_of_ok (account_known hknown), ih hrest, standIn_of_known hknown,
        leftOver, leftOver, List.filter_cons_of_neg (by simp [hknown])]
      rfl
    | false =>
      rw [trace_cons_of_ok (account_deadline hknown), ih hrest, standIn, hknown, leftOver_eq he]
      · rw [leftOver, leftOver, List.filter_cons_of_pos (by simp [hknown]), List.map_cons,
          ExchangeSnapshot.taken_cons]
        rfl
      · intro q hq
        rw [Session.outcome_recordExchange]
        exact if_neg hq

end SessionRun

/-- What is found in a snapshot is found at its time. -/
theorem LedgerView.detectedAt_of_mem_found {t : Tolerances} {view : LedgerView}
    {x : ExchangeSnapshot} {d : Discrepancy} (hd : d ∈ view.found t x) :
    d.detectedAt = x.capturedAt := by
  obtain ⟨findings, -, hfound⟩ := exists_findings t view x
  rw [show x = x.capturedOn x.capturedAt from rfl, hfound] at hd
  obtain ⟨f, -, rfl⟩ := ExchangeSnapshot.mem_discrepancies.1 hd
  rfl

/-! ## 3. Whole runs -/

namespace SessionPlan

variable {p : SessionPlan} {t : Tolerances} {report : Report}

/-- The snapshots that a session processes, in order and with the times that it gives them: those
that are collected, and then those that are put in at the end. -/
def processed (t : Tolerances) (p : SessionPlan) : List ExchangeSnapshot :=
  let start : SessionRun := .start (.start p.id p.startTime)
  SessionRun.trace (SessionRun.complete t) (fun _ c => c.snapshot?) start p.completions ++
    match p.completions.foldlM (SessionRun.complete t) start with
    | .ok r =>
      SessionRun.trace (SessionRun.account t p.interruption p.now)
        (SessionRun.standIn p.interruption p.now) (r.noteEnd p.interruption).flush p.exchanges
    | .error _ => []

/-- After a deadline, a snapshot of nothing for each exchange that gave none, as the clock is read
for it. -/
def unreached (p : SessionPlan) : List ExchangeSnapshot :=
  match p.interruption with
  | some (.deadline _) =>
    p.missing.map fun e => .unavailable e (p.now e) SessionRun.unfinishedError
  | _ => []

theorem placeholders_eq : p.placeholders =
    ExchangeSnapshot.taken (ExchangeSnapshot.latest p.startTime p.snapshots) p.unreached := by
  unfold placeholders unreached
  rcases p.interruption with _ | ⟨_ | limit⟩
  · rfl
  · rfl
  · rfl

theorem recaptured_recorded :
    List.Forall₂ ExchangeSnapshot.Recaptured (p.snapshots ++ p.unreached) p.recorded := by
  rw [recorded, placeholders_eq]
  exact List.rel_append ExchangeSnapshot.recaptured_taken ExchangeSnapshot.recaptured_taken

/-- Nothing is processed before the start. -/
theorem startTime_le_of_mem_processed {x : ExchangeSnapshot} (hx : x ∈ p.processed t) :
    p.startTime ≤ x.capturedAt := by
  have hcomplete := SessionRun.keepsTime_complete t
  rw [processed, List.mem_append] at hx
  rcases hx with hx | hx
  · exact hcomplete.le_of_mem_trace hx
  · split at hx
    · rename_i r hr
      have haccount := SessionRun.keepsTime_account t p.interruption p.now
      have hlast : r.lastCaptured ≤ x.capturedAt :=
        haccount.le_of_mem_trace (r := (r.noteEnd p.interruption).flush) hx
      exact Instant.le_trans (hcomplete.le_loop hr) hlast
    · cases hx

/-- **A session processes its snapshots in the order of time**, also if it breaks off. -/
theorem pairwise_processed :
    (p.processed t).Pairwise fun x y => x.capturedAt ≤ y.capturedAt := by
  have hcomplete := SessionRun.keepsTime_complete t
  have haccount := SessionRun.keepsTime_account t p.interruption p.now
  rw [processed, List.pairwise_append]
  refine ⟨hcomplete.pairwise_trace, ?_, fun x hx y hy => ?_⟩
  · split
    · exact haccount.pairwise_trace
    · exact .nil
  · split at hy
    · rename_i r hr
      have hlast : r.lastCaptured ≤ y.capturedAt :=
        haccount.le_of_mem_trace (r := (r.noteEnd p.interruption).flush) hy
      exact Instant.le_trans (hcomplete.mem_trace_le hr hx) hlast
    · cases hy

namespace Course

/-- There is a report only if every comparison comes out. -/
theorem comparable_of_perform (h : p.Course) (hreport : p.perform t = .ok report) :
    SessionRun.Comparable t p.completions := by
  obtain ⟨r, hr, -⟩ := bind_eq_ok_iff.1 hreport
  exact (SessionRun.comparable_iff_exists_run h.readings_length_le).2 ⟨r, hr⟩

/-- The report is that of the session in the end. -/
theorem report_eq (h : p.Course) (hreport : p.perform t = .ok report) :
    report = .ofSession (p.closing t) p.endTime :=
  Except.ok.inj (hreport.symm.trans (h.perform_eq (h.comparable_of_perform hreport)))

/-- If there is a report, what is processed is what it is made of. -/
theorem processed_eq (h : p.Course) (hreport : p.perform t = .ok report) :
    p.processed t = p.recorded := by
  obtain ⟨r, hr, hprogress⟩ := SessionRun.Progress.exists_run (s := .start p.id p.startTime)
    h.readings_length_le (h.comparable_of_perform hreport)
  have hview : r.ledger = p.view := hprogress.ledger
  have hflush : (r.noteEnd p.interruption).flush = _ := hprogress.flush h.exchanges_nodup
  rw [processed, SessionRun.trace_complete hr, hr, recorded, placeholders_eq]
  congr 1
  dsimp only
  rw [hflush, hview]
  rcases SessionRun.deadline_or p.interruption with ⟨limit, hlimit⟩ | hi
  · rw [unreached, hlimit, SessionRun.trace_account_deadline h.distinct, ← h.leftOver_eq (t := t),
      opened, hlimit]
    rfl
  · rw [SessionRun.trace_account hi, ← placeholders_eq, placeholders_of_ne hi]

/-- No exchange is processed twice. -/
theorem nodup_recorded (h : p.Course) : (p.recorded.map (·.exchange)).Nodup :=
  (h.exchanges_accounted.nodup_iff.2 h.distinct).of_append_left

/-- **Time never goes back within a session**, whatever the clock does.  The snapshots that a
session processes are in the order of time and none is before its start, also if the session breaks
off.  If there is a report, they are those that were collected, in the order of their arrival, and
after a deadline one of nothing for each exchange that is left, in the order of the exchanges; all
that is found in an exchange has the time of its one snapshot; and the session does not end before
its start. -/
theorem keeps_time (h : p.Course) (t : Tolerances) :
    (p.processed t).Pairwise (fun x y => x.capturedAt ≤ y.capturedAt) ∧
      (∀ x ∈ p.processed t, p.startTime ≤ x.capturedAt) ∧
      ∀ report, p.perform t = .ok report →
        List.Forall₂ ExchangeSnapshot.Recaptured (p.snapshots ++ p.unreached) (p.processed t) ∧
        ((p.processed t).map (·.exchange)).Nodup ∧
        (∀ d ∈ report.discrepancies, ∃ x ∈ p.processed t, x.exchange = d.exchange) ∧
        (∀ x ∈ p.processed t, ∀ d ∈ report.discrepancies, d.exchange = x.exchange →
          d.detectedAt = x.capturedAt) ∧
        report.startedAt = p.startTime ∧
        ∃ finish, report.session.endTime = some finish ∧ p.startTime ≤ finish := by
  refine ⟨pairwise_processed, fun x hx => startTime_le_of_mem_processed hx, ?_⟩
  intro report hreport
  have hnodup := h.nodup_recorded
  have hfound : ∀ d ∈ report.discrepancies, ∃ x ∈ p.recorded, d ∈ p.view.found t x := by
    intro d hd
    have hmem : d ∈ (p.closing t).discrepancies := by
      rw [h.report_eq hreport] at hd
      exact hd
    rwa [discrepancies_closing, Discrepancy.mem_sort, List.mem_flatMap] at hmem
  have hstart : (p.closing t).startTime = p.startTime := by
    rw [closing_frame, opened_frame]
    rfl
  rw [h.processed_eq hreport]
  refine ⟨recaptured_recorded, hnodup, ?_, ?_, ?_, ?_⟩
  · intro d hd
    obtain ⟨x, hx, hdx⟩ := hfound d hd
    exact ⟨x, hx, (LedgerView.exchange_of_mem_found hdx).symm⟩
  · intro x hx d hd hexchange
    obtain ⟨y, hy, hdy⟩ := hfound d hd
    have hyx : y.exchange = x.exchange := by
      rw [← hexchange, LedgerView.exchange_of_mem_found hdy]
    obtain rfl : y = x := List.inj_on_of_nodup_map hnodup hy hx hyx
    exact LedgerView.detectedAt_of_mem_found hdy
  · rw [h.report_eq hreport, ← hstart]
    rfl
  · rw [h.report_eq hreport, ← hstart]
    exact ⟨_, rfl, Instant.le_max_right _ _⟩

/-- The clock is set back by ten seconds when the session has started.  One exchange answers without
its orders, the other one not before the deadline. -/
theorem keeps_time_clock_set_back :
    let start := Instant.epoch.addNanos 10000000000
    let alpha : ExchangeSnapshot :=
      (ExchangeSnapshot.new (.of .exchange "alpha") .epoch).markDegraded .orders "timeout"
    let p : SessionPlan :=
      { id := default, startTime := start, exchanges := [alpha.exchange, .of .exchange "beta"]
        completions := [.collected alpha], interruption := some (.deadline default)
        now := fun _ => .epoch, endTime := .epoch }
    p.Course ∧ (p.processed .standard).map (·.capturedAt) = [start, start] ∧
      ∃ report, p.perform .standard = .ok report ∧ report.discrepancies.length = 2 ∧
        ∀ d ∈ report.discrepancies, d.detectedAt = start := by
  intro start alpha p
  have hcourse : p.Course := by
    refine ⟨nofun, by decide, [.collection alpha.exchange], List.nodup_singleton _, ?_, ?_, nofun⟩
    · intro task htask
      rw [List.mem_singleton.1 htask]
      exact List.mem_cons_of_mem _ List.mem_cons_self
    · exact .cons (.collected alpha) .nil
  have htimes : (p.processed .standard).map (·.capturedAt) = [start, start] := by decide +kernel
  have ht : SessionRun.Comparable .standard p.completions := by
    intro ledger x hledger _
    exact absurd (List.mem_singleton.1 hledger) nofun
  have hperform := hcourse.perform_eq ht
  have hlength : (p.closing .standard).discrepancies.length = 2 := by
    have hfound : ∀ x : ExchangeSnapshot, (p.view.found .standard x).length =
        (Detection.connectivity x).toList.length := fun x => by
      rw [show p.view.found .standard x = x.connectivity from rfl, ExchangeSnapshot.connectivity,
        ExchangeSnapshot.discrepancies, (Discrepancy.perm_sort _).length_eq, List.length_map]
    rw [discrepancies_closing, (Discrepancy.perm_sort _).length_eq, List.length_flatMap]
    simp only [hfound]
    decide +kernel
  obtain ⟨-, -, hreport⟩ := keeps_time hcourse .standard
  obtain ⟨-, -, hgiven, hdetected, -⟩ := hreport _ hperform
  refine ⟨hcourse, htimes, _, hperform, hlength, fun d hd => ?_⟩
  obtain ⟨x, hx, hexchange⟩ := hgiven d hd
  have hxstart : x.capturedAt ∈ [start, start] := htimes ▸ List.mem_map_of_mem hx
  rw [hdetected x hx d hd hexchange.symm]
  simpa using hxstart

end Course
end SessionPlan

end Reconciliation
