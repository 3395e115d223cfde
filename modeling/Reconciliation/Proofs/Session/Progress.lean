/-
# How a session gets on

A snapshot takes one of several ways into a session: it is compared at once, it waits for the
ledger, or it is recorded without one.  All of them lead to the same session, which is the one
that hears of the ledger first and then records everything in order.

* `LedgerView.found`: what is found in a snapshot;
* `SessionRun.Progress`: where a run stands after some completions;
* `SessionRun.Progress.complete`: one more completion;
* `SessionRun.Progress.exists_run`: any number of them.
-/
import Reconciliation.Proofs.Checked
import Reconciliation.Proofs.Session.Course
import Reconciliation.Proofs.Session.Recording

namespace Reconciliation

/-! ## 1. What is found in a snapshot -/

namespace LedgerView

variable {t : Tolerances} {view : LedgerView} {x y : ExchangeSnapshot} {ds : List Discrepancy}

/-- What is found in a snapshot that can be compared. -/
def found (t : Tolerances) (view : LedgerView) (x : ExchangeSnapshot) : List Discrepancy :=
  (view.compare t x).toOption.getD []

theorem found_eq (h : view.compare t x = .ok ds) : view.found t x = ds := by
  rw [found, h]
  rfl

/-- Without a ledger, only what was lost is found. -/
theorem found_of_unread (h : ∀ ledger, view ≠ .read ledger) : view.found t x = x.connectivity := by
  cases view with
  | awaited => rfl
  | unavailable => rfl
  | read ledger => exact absurd rfl (h ledger)

/-- What is found comes from findings that do not depend on the time of the snapshot. -/
theorem exists_findings (t : Tolerances) (view : LedgerView) (x : ExchangeSnapshot) :
    ∃ findings, Detection.ValuesByEntity findings ∧
      ∀ time, view.found t (x.capturedOn time) = (x.capturedOn time).discrepancies findings := by
  have hconnectivity : ∃ findings, Detection.ValuesByEntity findings ∧
      ∀ time, (x.capturedOn time).connectivity = (x.capturedOn time).discrepancies findings :=
    ⟨(Detection.connectivity x).toList, Detection.valuesByEntity_connectivity, fun _ => rfl⟩
  cases view with
  | awaited => exact hconnectivity
  | unavailable => exact hconnectivity
  | read ledger =>
    cases h : Detection.detect t x (ledger.expected x.exchange) with
    | ok findings =>
      refine ⟨findings, Detection.valuesByEntity_detect h, fun time => found_eq ?_⟩
      rw [compare, ExchangeSnapshot.compareWithLedger_capturedOn, h]
      rfl
    | error e =>
      refine ⟨[], fun f hf => absurd hf List.not_mem_nil, fun time => ?_⟩
      have hcompare : (LedgerView.read ledger).compare t (x.capturedOn time) = .error e := by
        rw [compare, ExchangeSnapshot.compareWithLedger_capturedOn, h]
        rfl
      rw [found, hcompare, ExchangeSnapshot.discrepancies, List.map_nil, Discrepancy.sort_nil]
      rfl

theorem exchange_of_mem_found {d : Discrepancy} (hd : d ∈ view.found t x) :
    d.exchange = x.exchange := by
  obtain ⟨findings, -, hfound⟩ := exists_findings t view x
  rw [show x = x.capturedOn x.capturedAt from rfl, hfound] at hd
  exact ExchangeSnapshot.exchange_of_mem_discrepancies hd

theorem idByEntity_found : Discrepancy.IdByEntity (view.found t x) := by
  obtain ⟨findings, hvalues, hfound⟩ := exists_findings t view x
  rw [show x = x.capturedOn x.capturedAt from rfl, hfound]
  exact ExchangeSnapshot.idByEntity_discrepancies hvalues

theorem redated_found (h : ExchangeSnapshot.Recaptured x y) :
    List.Forall₂ Discrepancy.Redated (view.found t x) (view.found t y) := by
  obtain ⟨time, rfl⟩ := h
  obtain ⟨findings, hvalues, hfound⟩ := exists_findings t view x
  have hx : view.found t x = x.discrepancies findings := hfound x.capturedAt
  rw [hx, hfound]
  exact ExchangeSnapshot.forall₂_discrepancies hvalues time

end LedgerView

/-! ## 2. One completion -/

/-- A session that hears how the read of the ledger ended. -/
def Session.hear (s : Session) : Completion → Session
  | .ledgerRead ledger =>
    let s := { s with ledgerVersion := some ledger.version }
    if ledger.isLaterThanRequested then s.addNote (SessionRun.laterNote ledger) else s
  | .ledgerFailed error => s.addNote s!"ledger unavailable: {error.message}"
  | .collected _ | .lost => s

namespace SessionRun

variable {t : Tolerances} {s : Session} {cs : List Completion} {c : Completion} {r : SessionRun}

/-- `Comparable t cs`: nothing overflows when the snapshots are compared with the ledger. -/
def Comparable (t : Tolerances) (cs : List Completion) : Prop :=
  ∀ ledger x, .ledgerRead ledger ∈ cs → .collected x ∈ cs →
    ∃ ds, x.compareWithLedger t ledger = .ok ds

/-- `Progress t s cs r`: the run `r` of the session `s` stands after the completions `cs`.  Every
snapshot waits, or is recorded once; the recorded ones are those that came last. -/
structure Progress (t : Tolerances) (s : Session) (cs : List Completion) (r : SessionRun) :
    Prop where
  ledger : r.ledger = .ofReadings (Completion.readings cs)
  time : r.lastCaptured = ExchangeSnapshot.latest s.startTime (Completion.snapshots cs)
  recorded : ∃ l, ExchangeSnapshot.taken s.startTime (Completion.snapshots cs) = r.waiting ++ l ∧
    r.session = ((Completion.readings cs).foldl Session.hear s).recordAll (r.ledger.found t) l ∧
    (r.ledger = .awaited → l = [])
  compared : ∀ ledger, r.ledger = .read ledger → r.waiting = []

theorem Progress.start : Progress t s [] (.start s) where
  ledger := rfl
  time := rfl
  recorded := ⟨[], rfl, rfl, fun _ => rfl⟩
  compared := nofun

theorem foldlM_recordCompared {ledger : LedgerSnapshot} {l : List ExchangeSnapshot}
    (h : ∀ x ∈ l, ∃ ds, x.compareWithLedger t ledger = .ok ds) :
    l.foldlM (recordCompared t ledger) s =
      .ok (s.recordAll ((LedgerView.read ledger).found t) l) := by
  induction l generalizing s with
  | nil => rfl
  | cons x rest ih =>
    obtain ⟨⟨ds, hx⟩, hrest⟩ := List.forall_mem_cons.1 h
    have hfound : (LedgerView.read ledger).found t x = ds := LedgerView.found_eq hx
    rw [List.foldlM_cons, recordCompared, hx, Session.recordAll_cons, hfound]
    exact ih hrest

/-- Comparing does not depend on the time of the snapshot. -/
theorem exists_compare_capturedOn {x : ExchangeSnapshot} {ledger : LedgerSnapshot}
    (h : ∃ ds, x.compareWithLedger t ledger = .ok ds) (time : Instant) :
    ∃ ds, (x.capturedOn time).compareWithLedger t ledger = .ok ds := by
  obtain ⟨ds, hds⟩ := h
  simp only [ExchangeSnapshot.compareWithLedger, bind_eq_ok_iff, pure_eq_ok_iff] at hds
  obtain ⟨findings, hfindings, -⟩ := hds
  refine ⟨(x.capturedOn time).discrepancies findings, ?_⟩
  rw [ExchangeSnapshot.compareWithLedger_capturedOn, hfindings]
  rfl

/-- A snapshot that comes before the ledger waits. -/
theorem collect_awaited (h : r.ledger = .awaited) (x : ExchangeSnapshot) :
    r.collect t x = .ok { r with
      waiting := r.waiting ++ [r.stamp x], lastCaptured := (r.stamp x).capturedAt } := by
  obtain ⟨session, ledger, waiting, lastCaptured⟩ := r
  cases h
  rfl

/-- A later one is recorded, whether or not there is a ledger to compare it with. -/
theorem collect_recorded {x : ExchangeSnapshot} {ds : List Discrepancy} (h : r.ledger ≠ .awaited)
    (hds : r.ledger.compare t (r.stamp x) = .ok ds) :
    r.collect t x = .ok { r with
      session := r.session.recordExchange (r.stamp x) ds
      lastCaptured := (r.stamp x).capturedAt } := by
  obtain ⟨session, ledger, waiting, lastCaptured⟩ := r
  cases ledger with
  | awaited => exact absurd rfl h
  | unavailable =>
    cases hds
    rfl
  | read ledger =>
    have hcompare : ExchangeSnapshot.compareWithLedger _ t ledger = .ok ds := hds
    simp only [collect, recordCompared, hcompare]
    rfl

theorem Progress.collect {x : ExchangeSnapshot} (h : Progress t s cs r)
    (hx : ∀ ledger, r.ledger = .read ledger → ∃ ds, x.compareWithLedger t ledger = .ok ds) :
    ∃ r', r.collect t x = .ok r' ∧ Progress t s (cs ++ [.collected x]) r' := by
  obtain ⟨l, htaken, hsession, hl⟩ := h.recorded
  have hsnapshots : Completion.snapshots (cs ++ [.collected x]) = Completion.snapshots cs ++ [x] :=
    Completion.snapshots_append
  have hreadings : Completion.readings (cs ++ [.collected x]) = Completion.readings cs :=
    Completion.readings_concat_of_not_reading rfl
  have hledger : r.ledger = .ofReadings (Completion.readings (cs ++ [.collected x])) := by
    rw [hreadings]
    exact h.ledger
  have hstamp : r.stamp x =
      x.notBefore (ExchangeSnapshot.latest s.startTime (Completion.snapshots cs)) := by
    rw [← h.time]
    rfl
  have htime : (r.stamp x).capturedAt =
      ExchangeSnapshot.latest s.startTime (Completion.snapshots (cs ++ [.collected x])) := by
    rw [hsnapshots, ExchangeSnapshot.latest_concat, hstamp]
  have htaken' : ExchangeSnapshot.taken s.startTime (Completion.snapshots (cs ++ [.collected x])) =
      r.waiting ++ (l ++ [r.stamp x]) := by
    rw [hsnapshots, ExchangeSnapshot.taken_concat, htaken, hstamp, List.append_assoc]
  by_cases hview : r.ledger = .awaited
  · refine ⟨_, collect_awaited hview x, hledger, htime, ⟨[], ?_, ?_, fun _ => rfl⟩, ?_⟩
    · rw [htaken', hl hview, List.append_nil]
      rfl
    · rw [hreadings]
      rw [hl hview] at hsession
      exact hsession
    · intro ledger hread
      rw [hview] at hread
      cases hread
  · obtain ⟨ds, hds⟩ : ∃ ds, r.ledger.compare t (r.stamp x) = .ok ds := by
      cases hread : r.ledger with
      | awaited => exact ⟨_, rfl⟩
      | unavailable => exact ⟨_, rfl⟩
      | read ledger => exact exists_compare_capturedOn (hx ledger hread) _
    refine ⟨_, collect_recorded hview hds, hledger, htime, ⟨l ++ [r.stamp x], htaken', ?_, ?_⟩, ?_⟩
    · rw [hreadings, Session.recordAll_concat, LedgerView.found_eq hds, ← hsession]
    · intro hawaited
      exact absurd hawaited hview
    · exact h.compared

/-- Before the read of the ledger ends, every snapshot waits, and nothing was recorded. -/
theorem Progress.waiting_eq (h : Progress t s cs r) (hcs : Completion.readings cs = []) :
    r.ledger = .awaited ∧
      r.waiting = ExchangeSnapshot.taken s.startTime (Completion.snapshots cs) ∧
      r.session = s := by
  have hledger : r.ledger = .awaited := by
    rw [h.ledger, hcs]
    rfl
  obtain ⟨l, htaken, hsession, hl⟩ := h.recorded
  rw [hl hledger] at htaken hsession
  rw [hcs] at hsession
  refine ⟨hledger, ?_, hsession⟩
  rw [htaken, List.append_nil]

theorem Progress.readLedger {ledger : LedgerSnapshot} (h : Progress t s cs r)
    (hcs : Completion.readings cs = [])
    (hledger : ∀ x, .collected x ∈ cs → ∃ ds, x.compareWithLedger t ledger = .ok ds) :
    ∃ r', r.readLedger t ledger = .ok r' ∧ Progress t s (cs ++ [.ledgerRead ledger]) r' := by
  obtain ⟨-, hwaiting, hsession⟩ := h.waiting_eq hcs
  have hsnapshots : Completion.snapshots (cs ++ [.ledgerRead ledger]) = Completion.snapshots cs :=
    Completion.snapshots_concat_of_none rfl
  have hreadings : Completion.readings (cs ++ [.ledgerRead ledger]) = [.ledgerRead ledger] := by
    rw [Completion.readings_append, hcs]
    rfl
  have hcompare : ∀ x ∈ r.waiting, ∃ ds, x.compareWithLedger t ledger = .ok ds := by
    intro x hx
    rw [hwaiting] at hx
    obtain ⟨y, hy, time, rfl⟩ := ExchangeSnapshot.exists_of_mem_taken hx
    exact exists_compare_capturedOn (hledger y (Completion.mem_snapshots.1 hy)) time
  have hheard : (if ledger.isLaterThanRequested then
        ({ r.session with ledgerVersion := some ledger.version }).addNote (laterNote ledger)
      else { r.session with ledgerVersion := some ledger.version }) =
      s.hear (.ledgerRead ledger) := by
    rw [hsession]
    rfl
  unfold SessionRun.readLedger
  dsimp only
  rw [hheard, foldlM_recordCompared hcompare]
  refine ⟨_, rfl, ?_, ?_, ⟨r.waiting, ?_, ?_, nofun⟩, fun _ _ => rfl⟩
  · rw [hreadings]
    rfl
  · rw [hsnapshots]
    exact h.time
  · rw [hsnapshots, hwaiting]
    rfl
  · rw [hreadings]
    rfl

theorem Progress.failLedger (error : ReconciliationError) (h : Progress t s cs r)
    (hcs : Completion.readings cs = []) :
    ∃ r', r.complete t (.ledgerFailed error) = .ok r' ∧
      Progress t s (cs ++ [.ledgerFailed error]) r' := by
  obtain ⟨-, hwaiting, hsession⟩ := h.waiting_eq hcs
  have hsnapshots : Completion.snapshots (cs ++ [.ledgerFailed error]) =
      Completion.snapshots cs := Completion.snapshots_concat_of_none rfl
  have hreadings : Completion.readings (cs ++ [.ledgerFailed error]) = [.ledgerFailed error] := by
    rw [Completion.readings_append, hcs]
    rfl
  refine ⟨_, rfl, ?_, ?_, ⟨[], ?_, ?_, nofun⟩, nofun⟩
  · rw [hreadings]
    rfl
  · rw [hsnapshots]
    exact h.time
  · rw [hsnapshots, List.append_nil]
    exact hwaiting.symm
  · rw [hreadings, hsession]
    rfl

/-- A task that broke off tells nothing. -/
theorem Progress.lose (h : Progress t s cs r) : Progress t s (cs ++ [.lost]) r := by
  have hsnapshots : Completion.snapshots (cs ++ [.lost]) = Completion.snapshots cs :=
    Completion.snapshots_concat_of_none rfl
  have hreadings : Completion.readings (cs ++ [.lost]) = Completion.readings cs :=
    Completion.readings_concat_of_not_reading rfl
  obtain ⟨hledger, htime, hrecorded, hcompared⟩ := h
  constructor
  · rw [hreadings]
    exact hledger
  · rw [hsnapshots]
    exact htime
  · rw [hsnapshots, hreadings]
    exact hrecorded
  · exact hcompared

/-- **A completion gets the run on**, whatever it is. -/
theorem Progress.complete (h : Progress t s cs r)
    (hone : (Completion.readings (cs ++ [c])).length ≤ 1) (ht : Comparable t (cs ++ [c])) :
    ∃ r', r.complete t c = .ok r' ∧ Progress t s (cs ++ [c]) r' := by
  have hfirst := Completion.readings_eq_nil_of_concat hone
  have hlast : c ∈ cs ++ [c] := List.mem_append_right _ List.mem_cons_self
  cases c with
  | collected x =>
    refine h.collect fun ledger hread => ?_
    rw [h.ledger] at hread
    have hmem : .ledgerRead ledger ∈ Completion.readings cs := LedgerView.mem_of_ofReadings hread
    exact ht ledger x (List.mem_append_left _ (Completion.mem_readings.1 hmem).1) hlast
  | ledgerRead ledger =>
    exact h.readLedger (hfirst rfl) fun x hx => ht ledger x hlast (List.mem_append_left _ hx)
  | ledgerFailed error => exact h.failLedger error (hfirst rfl)
  | lost => exact ⟨r, rfl, h.lose⟩

/-- **A run gets through its completions**, if nothing overflows. -/
theorem Progress.exists_run (hone : (Completion.readings cs).length ≤ 1)
    (ht : Comparable t cs) :
    ∃ r, cs.foldlM (SessionRun.complete t) (.start s) = .ok r ∧ Progress t s cs r := by
  induction cs using List.reverseRecOn with
  | nil => exact ⟨.start s, rfl, .start⟩
  | append_singleton cs c ih =>
    have hone' := Completion.readings_length_le_of_concat hone
    have ht' : Comparable t cs := fun ledger x hledger hx =>
      ht ledger x (List.mem_append_left _ hledger) (List.mem_append_left _ hx)
    obtain ⟨r, hr, hprogress⟩ := ih hone' ht'
    obtain ⟨r', hr', hprogress'⟩ := hprogress.complete hone ht
    refine ⟨r', ?_, hprogress'⟩
    rw [List.foldlM_append, hr]
    show (r.complete t c >>= pure) = _
    rw [hr']
    rfl

end SessionRun

end Reconciliation
