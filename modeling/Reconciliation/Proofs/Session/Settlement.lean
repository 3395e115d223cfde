/-
# How a session ends

When the tasks are done or the session is interrupted, the snapshots that still wait are recorded,
and then every exchange without an outcome: after a deadline as one that could not be reached,
otherwise as one that failed.  So the session is known from its plan.

* `SessionRun.Progress.flush`: the snapshots that were taken are recorded;
* `SessionRun.foldlM_account_deadline`, `SessionRun.foldlM_account`: the exchanges that are left;
* `SessionPlan.closing`: the session in the end;
* `SessionPlan.Course.perform_eq`: it is what is reported.
-/
import Reconciliation.Proofs.Session.Progress

namespace Reconciliation

/-! ## 1. Notes at the end -/

namespace Session

/-- The session with a note on why it ends, and on a ledger that was not heard of. -/
def noteEnd (s : Session) (interruption : Option Interruption) (view : LedgerView) : Session :=
  (({ session := s, ledger := view, waiting := [], lastCaptured := s.startTime } :
    SessionRun).noteEnd interruption).session

variable {s : Session} (interruption : Option Interruption) (view : LedgerView)

/-- Only a cancellation marks the session as cancelled; all else is notes. -/
theorem noteEnd_frame : s.noteEnd interruption view =
    { s with
      cancelled := s.cancelled || decide (interruption = some .cancelled)
      notes := (s.noteEnd interruption view).notes } := by
  obtain ⟨id, startTime, endTime, status, checked, outcomes, discrepancies, version, cancelled,
    notes⟩ := s
  simp only [noteEnd, SessionRun.noteEnd]
  rcases interruption with _ | ⟨_ | limit⟩
  · split <;> cases cancelled <;> rfl
  · cases cancelled <;> split <;> rfl
  · split <;> cases cancelled <;> rfl

theorem noteEnd_recordAll {found : ExchangeSnapshot → List Discrepancy}
    {l : List ExchangeSnapshot} :
    (s.recordAll found l).noteEnd interruption view =
      (s.noteEnd interruption view).recordAll found l := by
  refine recordAll_commute (f := fun s => s.noteEnd interruption view) fun s x m => ?_
  obtain ⟨id, startTime, endTime, status, checked, outcomes, discrepancies, version, cancelled,
    notes⟩ := s
  simp only [noteEnd, SessionRun.noteEnd]
  rcases interruption with _ | ⟨_ | limit⟩
  · split <;> rfl
  · cases cancelled <;> split <;> rfl
  · split <;> rfl

/-- The read of the ledger tells its version; all else is notes. -/
theorem hear_frame (c : Completion) : s.hear c =
    { s with ledgerVersion := (s.hear c).ledgerVersion, notes := (s.hear c).notes } := by
  cases c with
  | ledgerRead ledger =>
    simp only [hear]
    split <;> rfl
  | _ => rfl

theorem isSome_ledgerVersion_hear (c : Completion) :
    (s.hear c).ledgerVersion.isSome = true ↔
      (∃ ledger, c = .ledgerRead ledger) ∨ s.ledgerVersion.isSome = true := by
  cases c with
  | ledgerRead ledger =>
    refine iff_of_true ?_ (.inl ⟨ledger, rfl⟩)
    simp only [hear]
    split <;> rfl
  | _ => exact (or_iff_right nofun).symm

theorem foldl_hear_frame (cs : List Completion) : cs.foldl hear s =
    { s with
      ledgerVersion := (cs.foldl hear s).ledgerVersion, notes := (cs.foldl hear s).notes } := by
  induction cs generalizing s with
  | nil => rfl
  | cons c rest ih =>
    rw [List.foldl_cons, ih, hear_frame]

/-- A session knows the version of the ledger if it heard of a read. -/
theorem isSome_ledgerVersion_foldl_hear (cs : List Completion) :
    (cs.foldl hear s).ledgerVersion.isSome = true ↔
      s.ledgerVersion.isSome = true ∨ ∃ ledger, .ledgerRead ledger ∈ cs := by
  induction cs generalizing s with
  | nil => simp
  | cons c rest ih =>
    rw [List.foldl_cons, ih, isSome_ledgerVersion_hear]
    simp only [List.mem_cons, exists_or, eq_comm (b := c)]
    tauto

end Session

namespace SessionRun

variable {t : Tolerances} {s : Session} {cs : List Completion} {r : SessionRun}
  {interruption : Option Interruption} {now : ExchangeId → Instant} {e : ExchangeId}
  {exchanges : List ExchangeId}

/-! ## 2. Snapshots that wait -/

theorem foldl_recordUnmatched {view : LedgerView} (h : ∀ ledger, view ≠ .read ledger)
    (l : List ExchangeSnapshot) :
    l.foldl recordUnmatched s = s.recordAll (view.found t) l := by
  have hfound : recordUnmatched = fun s x => s.recordExchange x (view.found t x) := by
    funext s x
    rw [LedgerView.found_of_unread h]
    rfl
  rw [hfound]
  rfl

/-- **In the end the snapshots that were taken are recorded**, whichever way they took. -/
theorem Progress.flush (h : Progress t s cs r)
    (hcs : ((Completion.snapshots cs).map (·.exchange)).Nodup) :
    (r.noteEnd interruption).flush =
      { session := ((((Completion.readings cs).foldl Session.hear s).noteEnd interruption
          r.ledger).recordAll (r.ledger.found t)
          (ExchangeSnapshot.taken s.startTime (Completion.snapshots cs)))
        ledger := r.ledger
        waiting := []
        lastCaptured := ExchangeSnapshot.latest s.startTime (Completion.snapshots cs) } := by
  obtain ⟨l, htaken, hsession, -⟩ := h.recorded
  have hnodup : ((r.waiting ++ l).map (·.exchange)).Nodup := by
    rw [← htaken, ExchangeSnapshot.map_exchange_taken]
    exact hcs
  have hnoted : (r.noteEnd interruption).session =
      (((Completion.readings cs).foldl Session.hear s).noteEnd interruption r.ledger).recordAll
        (r.ledger.found t) l := by
    rw [← Session.noteEnd_recordAll, ← hsession]
    rfl
  have hflushed : r.waiting.foldl recordUnmatched (r.noteEnd interruption).session =
      (r.noteEnd interruption).session.recordAll (r.ledger.found t) r.waiting := by
    by_cases hread : ∃ ledger, r.ledger = .read ledger
    · obtain ⟨ledger, hread⟩ := hread
      rw [h.compared ledger hread]
      rfl
    · exact foldl_recordUnmatched (fun ledger hledger => hread ⟨ledger, hledger⟩) _
  have hrecorded : r.waiting.foldl recordUnmatched (r.noteEnd interruption).session =
      (((Completion.readings cs).foldl Session.hear s).noteEnd interruption r.ledger).recordAll
        (r.ledger.found t) (ExchangeSnapshot.taken s.startTime (Completion.snapshots cs)) := by
    rw [hflushed, hnoted, ← Session.recordAll_append, htaken]
    refine (Session.recordAll_perm (fun x d => LedgerView.exchange_of_mem_found) hnodup ?_).symm
    exact List.perm_append_comm
  rw [← hrecorded, ← h.time]
  rfl

/-! ## 3. Exchanges that are left over -/

/-- Exchanges that are left over are treated in two ways: after a deadline, and otherwise. -/
theorem deadline_or (interruption : Option Interruption) :
    (∃ limit, interruption = some (.deadline limit)) ∨
      ∀ limit, interruption ≠ some (.deadline limit) := by
  rcases interruption with _ | ⟨_ | limit⟩
  · exact .inr nofun
  · exact .inr nofun
  · exact .inl ⟨limit, rfl⟩

theorem account_known (h : r.session.outcomes.contains e = true) :
    r.account t interruption now e = .ok r := by
  unfold account
  rw [if_pos h]
  rfl

theorem account_failed (hi : ∀ limit, interruption ≠ some (.deadline limit))
    (h : r.session.outcomes.contains e = false) :
    r.account t interruption now e = .ok { r with session := r.session.recordFailure e } := by
  unfold account
  rw [if_neg (by rw [h]; exact Bool.false_ne_true)]
  split
  · exact absurd rfl (hi _)
  · rfl

/-- An exchange that could not be reached can always be recorded. -/
theorem account_deadline {limit : Span} (h : r.session.outcomes.contains e = false) :
    r.account t (some (.deadline limit)) now e = .ok { r with
      session := r.session.recordExchange (r.stamp (.unavailable e (now e) unfinishedError))
        (r.ledger.found t (r.stamp (.unavailable e (now e) unfinishedError)))
      lastCaptured := (r.stamp (.unavailable e (now e) unfinishedError)).capturedAt } := by
  obtain ⟨session, ledger, waiting, lastCaptured⟩ := r
  unfold account
  rw [if_neg (by rw [h]; exact Bool.false_ne_true)]
  cases ledger <;> rfl

/-- The exchanges that have no outcome yet. -/
def leftOver (s : Session) (exchanges : List ExchangeId) : List ExchangeId :=
  exchanges.filter fun e => !s.outcomes.contains e

/-- What comes of one exchange leaves the others as they are. -/
theorem leftOver_eq {s' : Session} (he : e ∉ exchanges)
    (h : ∀ q, q ≠ e → s'.outcomes.get? q = s.outcomes.get? q) :
    leftOver s' exchanges = leftOver s exchanges := by
  refine List.filter_congr fun q hq => ?_
  have hne : q ≠ e := fun heq => he (heq ▸ hq)
  rw [SortedMap.contains, SortedMap.contains, h q hne]

theorem foldlM_account (hi : ∀ limit, interruption ≠ some (.deadline limit))
    (hnodup : exchanges.Nodup) :
    exchanges.foldlM (account t interruption now) r =
      .ok { r with session := r.session.recordFailures (leftOver r.session exchanges) } := by
  induction exchanges generalizing r with
  | nil => rfl
  | cons e rest ih =>
    obtain ⟨he, hrest⟩ := List.nodup_cons.1 hnodup
    rw [List.foldlM_cons]
    cases hknown : r.session.outcomes.contains e with
    | true =>
      rw [account_known hknown, leftOver, List.filter_cons_of_neg (by simp [hknown])]
      exact ih hrest
    | false =>
      rw [account_failed hi hknown, leftOver, List.filter_cons_of_pos (by simp [hknown]),
        Session.recordFailures_cons]
      have hleft : leftOver (r.session.recordFailure e) rest = leftOver r.session rest :=
        leftOver_eq he fun q hq => by rw [Session.outcome_recordFailure, if_neg hq]
      have hfold := ih (r := { r with session := r.session.recordFailure e }) hrest
      dsimp only at hfold
      rw [hleft] at hfold
      exact hfold

theorem foldlM_account_deadline {limit : Span} (hnodup : exchanges.Nodup) :
    ∃ last, exchanges.foldlM (account t (some (.deadline limit)) now) r =
      .ok { r with
        session := r.session.recordAll (r.ledger.found t) (ExchangeSnapshot.taken r.lastCaptured
          ((leftOver r.session exchanges).map fun e => .unavailable e (now e) unfinishedError))
        lastCaptured := last } := by
  induction exchanges generalizing r with
  | nil => exact ⟨r.lastCaptured, rfl⟩
  | cons e rest ih =>
    obtain ⟨he, hrest⟩ := List.nodup_cons.1 hnodup
    rw [List.foldlM_cons]
    cases hknown : r.session.outcomes.contains e with
    | true =>
      rw [account_known hknown, leftOver, List.filter_cons_of_neg (by simp [hknown])]
      exact ih hrest
    | false =>
      rw [account_deadline hknown, leftOver, List.filter_cons_of_pos (by simp [hknown]),
        List.map_cons, ExchangeSnapshot.taken_cons, Session.recordAll_cons]
      set x := r.stamp (.unavailable e (now e) unfinishedError) with hx
      have hleft : leftOver (r.session.recordExchange x (r.ledger.found t x)) rest =
          leftOver r.session rest :=
        leftOver_eq he fun q hq => by
          rw [Session.outcome_recordExchange, if_neg (show ¬ q = x.exchange from hq)]
      obtain ⟨last, hfold⟩ := ih (r := { r with
        session := r.session.recordExchange x (r.ledger.found t x)
        lastCaptured := x.capturedAt }) hrest
      dsimp only at hfold
      rw [hleft] at hfold
      exact ⟨last, hfold⟩

end SessionRun

/-! ## 4. The session in the end -/

namespace SessionPlan

variable {p : SessionPlan} {t : Tolerances} {e : ExchangeId}

/-- The session with what is noted in it, before anything is recorded. -/
def opened (p : SessionPlan) : Session :=
  ((Completion.readings p.completions).foldl Session.hear (.start p.id p.startTime)).noteEnd
    p.interruption p.view

/-- The exchanges that gave no snapshot. -/
def missing (p : SessionPlan) : List ExchangeId :=
  p.exchanges.filter fun e => e ∉ p.snapshots.map (·.exchange)

/-- After a deadline, a snapshot of nothing for each of those. -/
def placeholders (p : SessionPlan) : List ExchangeSnapshot :=
  match p.interruption with
  | some (.deadline _) =>
    ExchangeSnapshot.taken (ExchangeSnapshot.latest p.startTime p.snapshots)
      (p.missing.map fun e => .unavailable e (p.now e) SessionRun.unfinishedError)
  | _ => []

/-- Otherwise they failed. -/
def failed (p : SessionPlan) : List ExchangeId :=
  match p.interruption with
  | some (.deadline _) => []
  | _ => p.missing

/-- The snapshots that are recorded. -/
def recorded (p : SessionPlan) : List ExchangeSnapshot := p.taken ++ p.placeholders

/-- The session in the end. -/
def closing (t : Tolerances) (p : SessionPlan) : Session :=
  (p.opened.recordAll (p.view.found t) p.recorded).recordFailures p.failed

section Deadline

variable {limit : Span}

theorem placeholders_deadline (h : p.interruption = some (.deadline limit)) : p.placeholders =
    ExchangeSnapshot.taken (ExchangeSnapshot.latest p.startTime p.snapshots)
      (p.missing.map fun e => .unavailable e (p.now e) SessionRun.unfinishedError) := by
  rw [placeholders, h]

theorem failed_deadline (h : p.interruption = some (.deadline limit)) : p.failed = [] := by
  rw [failed, h]

theorem placeholders_of_ne (h : ∀ limit, p.interruption ≠ some (.deadline limit)) :
    p.placeholders = [] := by
  unfold placeholders
  split
  · exact absurd ‹_› (h _)
  · rfl

theorem failed_of_ne (h : ∀ limit, p.interruption ≠ some (.deadline limit)) :
    p.failed = p.missing := by
  unfold failed
  split
  · exact absurd ‹_› (h _)
  · rfl

end Deadline

/-- What is noted in a session is nothing recorded. -/
theorem opened_frame : p.opened =
    { Session.start p.id p.startTime with
      ledgerVersion := p.opened.ledgerVersion
      cancelled := decide (p.interruption = some .cancelled)
      notes := p.opened.notes } := by
  rw [opened, Session.noteEnd_frame, Session.foldl_hear_frame]
  rfl

/-- What was found in the snapshots that are recorded, in report order. -/
theorem discrepancies_closing :
    (p.closing t).discrepancies = Discrepancy.sort (p.recorded.flatMap (p.view.found t)) := by
  have hnil : p.opened.discrepancies = [] := by
    rw [opened_frame]
    rfl
  rw [closing, Session.recordFailures_frame]
  dsimp only
  rw [Session.discrepancies_recordAll, hnil, List.nil_append]
  rw [hnil, Discrepancy.sort_nil]

namespace Course

/-- The snapshots that are recorded are those that were collected, with other times, and some of
nothing. -/
theorem recorded_cases {x : ExchangeSnapshot} (hx : x ∈ p.recorded) :
    (∃ y, .collected y ∈ p.completions ∧ ExchangeSnapshot.Recaptured y x) ∨
      ∃ e time error, ExchangeSnapshot.Recaptured (.unavailable e time error) x := by
  rcases List.mem_append.1 hx with hx | hx
  · obtain ⟨y, hy, hyx⟩ := ExchangeSnapshot.exists_of_mem_taken hx
    exact .inl ⟨y, Completion.mem_snapshots.1 hy, hyx⟩
  · unfold placeholders at hx
    split at hx
    · obtain ⟨y, hy, hyx⟩ := ExchangeSnapshot.exists_of_mem_taken hx
      obtain ⟨e, -, rfl⟩ := List.mem_map.1 hy
      exact .inr ⟨_, _, _, hyx⟩
    · cases hx

/-- All of them can be compared. -/
theorem exists_compare (ht : SessionRun.Comparable t p.completions) {x : ExchangeSnapshot}
    (hx : x ∈ p.recorded) : ∃ ds, p.view.compare t x = .ok ds := by
  cases hview : p.view with
  | awaited => exact ⟨_, rfl⟩
  | unavailable => exact ⟨_, rfl⟩
  | read ledger =>
    have hledger : .ledgerRead ledger ∈ p.completions :=
      (Completion.mem_readings.1 (LedgerView.mem_of_ofReadings hview)).1
    rcases recorded_cases hx with ⟨y, hy, time, rfl⟩ | ⟨e, time, error, time', rfl⟩
    · exact SessionRun.exists_compare_capturedOn (ht ledger y hledger hy) time
    · exact ⟨_, rfl⟩

theorem nodup_taken (h : p.Course) : (p.taken.map (·.exchange)).Nodup := by
  rw [taken, ExchangeSnapshot.map_exchange_taken]
  exact h.exchanges_nodup

/-- The exchanges without an outcome are those that gave no snapshot. -/
theorem leftOver_eq (h : p.Course) :
    SessionRun.leftOver (p.opened.recordAll (p.view.found t) p.taken) p.exchanges = p.missing := by
  refine List.filter_congr fun e _ => ?_
  have hnone : p.opened.outcomes.get? e = none := by
    rw [opened_frame]
    rfl
  have hexchanges : p.taken.map (·.exchange) = p.snapshots.map (·.exchange) :=
    ExchangeSnapshot.map_exchange_taken
  have hknown : (p.opened.recordAll (p.view.found t) p.taken).outcomes.contains e = true ↔
      e ∈ p.snapshots.map (·.exchange) := by
    rw [SortedMap.contains, Option.isSome_iff_exists, ← hexchanges, List.mem_map]
    simp only [Session.outcome_recordAll_iff h.nodup_taken, hnone, reduceCtorEq, and_false,
      or_false]
    constructor
    · rintro ⟨o, x, hx, he, -⟩
      exact ⟨x, hx, he⟩
    · rintro ⟨x, hx, he⟩
      exact ⟨_, x, hx, he, rfl⟩
  by_cases he : e ∈ p.snapshots.map (·.exchange)
  · simp only [hknown.2 he, he, not_true, decide_false, Bool.not_true]
  · have hfalse : (p.opened.recordAll (p.view.found t) p.taken).outcomes.contains e = false :=
      Bool.eq_false_iff.2 fun htrue => he (hknown.1 htrue)
    simp only [hfalse, he, not_false_eq_true, decide_true, Bool.not_false]

/-- **Every exchange is accounted for once**: by a snapshot that is recorded, or as failed. -/
theorem exchanges_accounted (h : p.Course) :
    (p.recorded.map (·.exchange) ++ p.failed).Perm p.exchanges := by
  have hall : p.recorded.map (·.exchange) ++ p.failed =
      p.snapshots.map (·.exchange) ++ p.missing := by
    rw [recorded, List.map_append, taken, ExchangeSnapshot.map_exchange_taken, List.append_assoc]
    congr 1
    unfold placeholders failed
    split
    · rw [ExchangeSnapshot.map_exchange_taken, List.map_map, List.append_nil]
      exact List.map_id _
    · rfl
  rw [hall]
  refine (List.perm_ext_iff_of_nodup ?_ h.distinct).2 fun e => ?_
  · refine h.exchanges_nodup.append (h.distinct.filter _) fun e he hmissing => ?_
    exact of_decide_eq_true (List.mem_filter.1 hmissing).2 he
  · rw [List.mem_append, missing, List.mem_filter, decide_eq_true_iff]
    constructor
    · rintro (he | ⟨he, -⟩)
      · exact h.exchanges_subset he
      · exact he
    · intro he
      by_cases hgiven : e ∈ p.snapshots.map (·.exchange)
      · exact .inl hgiven
      · exact .inr ⟨he, hgiven⟩

/-- Without an interruption no exchange is left, if no task breaks off. -/
theorem missing_eq_nil (h : p.Course) (hinterruption : p.interruption = none)
    (hlost : .lost ∉ p.completions) : p.missing = [] := by
  refine List.filter_eq_nil_iff.2 fun e he => ?_
  have hgiven : e ∈ p.snapshots.map (·.exchange) :=
    (h.exchanges_perm hinterruption hlost).symm.subset he
  simp only [hgiven, not_true, decide_false, Bool.false_eq_true, not_false_eq_true]

/-- **The report of a session is known from its plan**, if nothing overflows. -/
theorem perform_eq (h : p.Course) (ht : SessionRun.Comparable t p.completions) :
    p.perform t = .ok (.ofSession (p.closing t) p.endTime) := by
  obtain ⟨r, hr, hprogress⟩ :=
    SessionRun.Progress.exists_run (s := .start p.id p.startTime) h.readings_length_le ht
  have hflush : (r.noteEnd p.interruption).flush =
      { session := p.opened.recordAll (p.view.found t) p.taken, ledger := p.view, waiting := []
        lastCaptured := ExchangeSnapshot.latest p.startTime p.snapshots } := by
    have hview : r.ledger = p.view := hprogress.ledger
    rw [hprogress.flush h.exchanges_nodup, hview]
    rfl
  have hsettle : ∃ r', r.settle t p.interruption p.now p.exchanges = .ok r' ∧
      r'.session = p.closing t := by
    unfold SessionRun.settle
    rw [hflush]
    rcases SessionRun.deadline_or p.interruption with ⟨limit, hlimit⟩ | hi
    · obtain ⟨last, hfold⟩ := SessionRun.foldlM_account_deadline h.distinct
      rw [← hlimit] at hfold
      refine ⟨_, hfold, ?_⟩
      dsimp only
      rw [h.leftOver_eq, closing, recorded, failed_deadline hlimit, placeholders_deadline hlimit,
        Session.recordFailures_nil, Session.recordAll_append]
    · refine ⟨_, SessionRun.foldlM_account hi h.distinct, ?_⟩
      dsimp only
      rw [h.leftOver_eq, closing, recorded, failed_of_ne hi, placeholders_of_ne hi, List.append_nil]
  obtain ⟨r', hr', hsession⟩ := hsettle
  unfold SessionPlan.perform
  rw [hr]
  show (r.settle t p.interruption p.now p.exchanges >>= _) = _
  rw [hr', ← hsession]
  rfl

end Course

end SessionPlan

end Reconciliation
