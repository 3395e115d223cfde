/-
# Lost data is announced

Where something could not be collected, the report says so, and says so once: for every exchange
that is not complete there is one critical discrepancy, and for every category that could not be
compared there is one besides, if the others could.

* `ExchangeSnapshot.isDegraded_ofFetches`, `ExchangeSnapshot.collectionError_ofFetches`: a
  collection marks what failed and keeps the error;
* `LedgerView.filter_connectivity_found`, `LedgerView.filter_skipped_found`: what is found of it in
  a snapshot;
* `SessionPlan.Course.announces_lost_data`: the reports.
-/
import Reconciliation.Collection
import Reconciliation.Proofs.Session.Accounting

namespace Reconciliation

/-! ## 1. Collections -/

namespace ExchangeSnapshot

variable {s : ExchangeSnapshot} {c : Category} {e : ExchangeId} {time : Instant}
  {results : List (Category × Except ReconciliationError CategoryState)}

theorem isDegraded_addFetch (result : Category × Except ReconciliationError CategoryState) :
    (s.addFetch result).isDegraded c = true ↔
      (∃ error, result = (c, .error error)) ∨ s.isDegraded c = true := by
  obtain ⟨c', answer⟩ := result
  cases answer with
  | ok state =>
    have hother : ¬ ∃ error, (c', Except.ok state) = (c, (.error error :
        Except ReconciliationError CategoryState)) := by
      rintro ⟨error, heq⟩
      cases (Prod.mk.inj heq).2
    rw [or_iff_right hother]
    cases state <;> rfl
  | error error =>
    by_cases hc : c = c'
    · subst hc
      refine iff_of_true ?_ (.inl ⟨error, rfl⟩)
      exact PerCategory.get_set_self s.degraded c true
    · have hother : ¬ ∃ error', (c', Except.error error) = (c, (.error error' :
          Except ReconciliationError CategoryState)) := by
        rintro ⟨error', heq⟩
        exact hc (Prod.mk.inj heq).1.symm
      rw [or_iff_right hother]
      show (s.degraded.set c' true).get c = true ↔ _
      rw [PerCategory.get_set_of_ne s.degraded true hc]
      rfl

/-- A category is marked if it could not be fetched. -/
theorem isDegraded_ofFetches :
    (ofFetches e time results).isDegraded c = true ↔ ∃ error, (c, .error error) ∈ results := by
  suffices h : ∀ s : ExchangeSnapshot, (results.foldl addFetch s).isDegraded c = true ↔
      (∃ error, (c, .error error) ∈ results) ∨ s.isDegraded c = true by
    refine (h _).trans (or_iff_left ?_)
    cases c <;> exact Bool.false_ne_true
  induction results with
  | nil => simp
  | cons result rest ih =>
    intro s
    rw [List.foldl_cons, ih, isDegraded_addFetch]
    simp only [List.mem_cons, exists_or, eq_comm (b := result)]
    tauto

/-- There is an error if a category could not be fetched. -/
theorem collectionError_ofFetches :
    (ofFetches e time results).collectionError.isSome = true ↔
      ∃ c error, (c, .error error) ∈ results := by
  suffices h : ∀ s : ExchangeSnapshot, (results.foldl addFetch s).collectionError.isSome = true ↔
      (∃ c error, (c, .error error) ∈ results) ∨ s.collectionError.isSome = true by
    exact (h _).trans (or_iff_left Bool.false_ne_true)
  induction results with
  | nil => simp
  | cons result rest ih =>
    intro s
    obtain ⟨c', answer⟩ := result
    rw [List.foldl_cons, ih]
    cases answer with
    | ok state =>
      have hstate : (s.addFetch (c', .ok state)).collectionError = s.collectionError := by
        cases state <;> rfl
      rw [hstate]
      simp only [List.mem_cons, Prod.mk.injEq, reduceCtorEq, and_false, false_or]
    | error error =>
      exact iff_of_true (.inr rfl) (.inl ⟨c', error, List.mem_cons_self⟩)

/-- `s.Collected`: the snapshot is what fetching the categories of its exchange gave. -/
def Collected (s : ExchangeSnapshot) : Prop :=
  ∃ time results, s = ofFetches s.exchange time results

/-- `s.Explained`: something is missing in the snapshot exactly if it has an error. -/
def Explained (s : ExchangeSnapshot) : Prop :=
  s.isComplete = false ↔ s.collectionError.isSome = true

theorem explained_iff :
    s.Explained ↔ ∀ c, s.isDegraded c = true → s.collectionError.isSome = true := by
  have hmembers : s.degraded.members.isEmpty = true ↔ ∀ c, ¬ s.isDegraded c = true := by
    rw [List.isEmpty_iff, PerCategory.members, List.filter_eq_nil_iff]
    exact ⟨fun h c => h c (Category.mem_all c), fun h c _ => h c⟩
  unfold Explained isComplete
  cases s.collectionError with
  | none =>
    simp only [Option.isNone_none, Bool.and_true, Option.isSome_none, Bool.false_eq_true,
      iff_false, Bool.not_eq_false, hmembers]
  | some error => simp

theorem Collected.explained (h : s.Collected) : s.Explained := by
  obtain ⟨time, results, hs⟩ := h
  rw [hs, explained_iff]
  intro c hc
  obtain ⟨error, herror⟩ := isDegraded_ofFetches.1 hc
  exact collectionError_ofFetches.2 ⟨c, error, herror⟩

end ExchangeSnapshot

/-! ## 2. What is found in a snapshot -/

namespace LedgerView

variable {t : Tolerances} {view : LedgerView} {x : ExchangeSnapshot} {ds : List Discrepancy}

/-- Without a ledger, nothing else is found than that a collection failed. -/
theorem type_of_mem_found_of_unread {d : Discrepancy} (h : ∀ ledger, view ≠ .read ledger)
    (hd : d ∈ view.found t x) : d.type = .connectivity := by
  rw [found_of_unread h, ExchangeSnapshot.connectivity, ExchangeSnapshot.discrepancies,
    Discrepancy.mem_sort, List.mem_map] at hd
  obtain ⟨f, hf, rfl⟩ := hd
  rw [Finding.type_discrepancy]
  exact Detection.type_of_mem_connectivity hf

/-- That a collection failed is found once, and only if it did. -/
theorem filter_connectivity_found (h : view.compare t x = .ok ds) :
    ((view.found t x).filter (·.type = .connectivity)).Perm
      ((Detection.connectivity x).toList.map (Finding.discrepancy x.exchange x.capturedAt)) := by
  have hfindings : ∃ findings, ds = x.discrepancies findings ∧
      findings.filter (·.type = .connectivity) = (Detection.connectivity x).toList := by
    have hconnectivity : (Detection.connectivity x).toList.filter (·.type = .connectivity) =
        (Detection.connectivity x).toList :=
      List.filter_eq_self.2 fun f hf => decide_eq_true (Detection.type_of_mem_connectivity hf)
    cases view with
    | awaited =>
      cases h
      exact ⟨_, rfl, hconnectivity⟩
    | unavailable =>
      cases h
      exact ⟨_, rfl, hconnectivity⟩
    | read ledger =>
      simp only [compare, ExchangeSnapshot.compareWithLedger, bind_eq_ok_iff, pure_eq_ok_iff] at h
      obtain ⟨findings, hfindings, rfl⟩ := h
      exact ⟨findings, rfl, Detection.filter_connectivity_detect hfindings⟩
  obtain ⟨findings, rfl, hfilter⟩ := hfindings
  rw [found_eq h, ← hfilter]
  exact ExchangeSnapshot.filter_type_discrepancies .connectivity

/-- Of a snapshot that can be compared in part, every other category is found once; of one that
cannot be compared at all, none. -/
theorem filter_skipped_found {ledger : LedgerSnapshot}
    (h : (LedgerView.read ledger).compare t x = .ok ds) :
    (((LedgerView.read ledger).found t x).filter (·.type = .detectionSkipped)).Perm
      (((if x.isUsable then x.degraded.members else []).map Finding.detectionSkipped).map
        (Finding.discrepancy x.exchange x.capturedAt)) := by
  rw [found_eq h]
  simp only [compare, ExchangeSnapshot.compareWithLedger, bind_eq_ok_iff, pure_eq_ok_iff] at h
  obtain ⟨findings, hfindings, rfl⟩ := h
  have hfilter := Detection.filter_skipped_detect hfindings
  have hmembers : (if x.isUsable then x.degraded.members else []).map Finding.detectionSkipped =
      findings.filter (·.type = .detectionSkipped) := by
    rw [hfilter]
    split <;> rfl
  rw [hmembers]
  exact ExchangeSnapshot.filter_type_discrepancies .detectionSkipped

end LedgerView

/-! ## 3. Reports -/

namespace ExchangeSnapshot

variable {s s' : ExchangeSnapshot}

theorem explained_unavailable (e : ExchangeId) (time : Instant) (error : String) :
    (unavailable e time error).Explained := ⟨fun _ => rfl, fun _ => rfl⟩

theorem Recaptured.explained (h : Recaptured s s') (hs : s.Explained) : s'.Explained := by
  obtain ⟨time, rfl⟩ := h
  exact hs

theorem outcome_eq_complete_iff :
    ExchangeOutcome.ofSnapshot s = .complete ↔ s.isComplete = true := by
  unfold ExchangeOutcome.ofSnapshot
  split
  · rename_i hcomplete
    exact iff_of_true rfl hcomplete
  · rename_i hcomplete
    refine iff_of_false (fun h => ?_) hcomplete
    split at h <;> cases h

theorem isUsable_of_outcome (h : ExchangeOutcome.ofSnapshot s = .degraded) :
    s.isUsable = true := by
  unfold ExchangeOutcome.ofSnapshot at h
  split at h
  · cases h
  · split at h
    · assumption
    · cases h

theorem not_isUsable_of_outcome (h : ExchangeOutcome.ofSnapshot s = .failed) :
    s.isUsable = false := by
  unfold ExchangeOutcome.ofSnapshot at h
  split at h
  · cases h
  · split at h
    · cases h
    · rename_i husable
      exact Bool.eq_false_iff.2 husable

end ExchangeSnapshot

namespace SessionPlan
namespace Course

variable {p : SessionPlan} {t : Tolerances} {e : ExchangeId} {o : ExchangeOutcome}

/-- If no task breaks off and the session is not cancelled, no exchange fails without a word. -/
theorem failed_eq_nil (h : p.Course) (hcancelled : p.interruption ≠ some .cancelled)
    (hlost : .lost ∉ p.completions) : p.failed = [] := by
  unfold failed
  split
  · rfl
  · rename_i hdeadline
    refine h.missing_eq_nil ?_ hlost
    cases hinterruption : p.interruption with
    | none => rfl
    | some why =>
      cases why with
      | cancelled => exact absurd hinterruption hcancelled
      | deadline limit => exact absurd hinterruption (hdeadline limit)

/-- What is found about an exchange is found in its snapshot. -/
theorem filter_closing (h : p.Course) {x : ExchangeSnapshot} (hx : x ∈ p.recorded)
    (type : DiscrepancyType) :
    ((p.closing t).discrepancies.filter fun d => d.exchange = x.exchange ∧ d.type = type).Perm
      ((p.view.found t x).filter (·.type = type)) := by
  have hnodup := h.exchanges_accounted.nodup_iff.2 h.distinct
  have hrecorded := (List.nodup_append.1 hnodup).1
  have hexchange : (p.recorded.flatMap (p.view.found t)).filter (·.exchange = x.exchange) =
      p.view.found t x :=
    Session.filter_exchange_flatMap (fun x d => LedgerView.exchange_of_mem_found) hrecorded hx
  have hboth : (p.recorded.flatMap (p.view.found t)).filter
      (fun d => d.exchange = x.exchange ∧ d.type = type) =
      (p.view.found t x).filter (·.type = type) := by
    rw [← hexchange, List.filter_filter]
    refine List.filter_congr fun d _ => ?_
    rw [Bool.decide_and, Bool.and_comm]
  rw [discrepancies_closing, ← hboth]
  exact (Discrepancy.perm_sort _).filter _

/-- Every snapshot that is recorded explains what it misses, if it does when it is collected. -/
theorem explained_of_mem_recorded
    (hcollected : ∀ s, .collected s ∈ p.completions → s.Collected) {x : ExchangeSnapshot}
    (hx : x ∈ p.recorded) : x.Explained := by
  rcases recorded_cases hx with ⟨y, hy, hyx⟩ | ⟨e, time, error, hyx⟩
  · exact hyx.explained (hcollected y hy).explained
  · exact hyx.explained (ExchangeSnapshot.explained_unavailable e time error)

section Found

variable (ht : SessionRun.Comparable t p.completions) {x : ExchangeSnapshot} (hx : x ∈ p.recorded)
include ht hx

/-- That a collection failed is reported once, and only if it did. -/
theorem connectivity_closing (h : p.Course) :
    ((p.closing t).discrepancies.filter
      fun d => d.exchange = x.exchange ∧ d.type = .connectivity).Perm
      ((Detection.connectivity x).toList.map (Finding.discrepancy x.exchange x.capturedAt)) := by
  obtain ⟨ds, hds⟩ := exists_compare ht hx
  exact (h.filter_closing hx .connectivity).trans (LedgerView.filter_connectivity_found hds)

/-- An exchange with all its data has no failed collection. -/
theorem not_connectivity_closing (h : p.Course) (hexplained : x.Explained)
    (hcomplete : x.isComplete = true) {d : Discrepancy} (hd : d ∈ (p.closing t).discrepancies)
    (hde : d.exchange = x.exchange) : d.type ≠ .connectivity := by
  intro htype
  have herror : x.collectionError = none := by
    refine Option.not_isSome_iff_eq_none.1 fun hsome => ?_
    have hfalse := hexplained.2 hsome
    rw [hcomplete] at hfalse
    cases hfalse
  have hnone := h.connectivity_closing ht hx
  rw [Detection.connectivity, herror] at hnone
  have hmem : d ∈ (p.closing t).discrepancies.filter
      fun d => d.exchange = x.exchange ∧ d.type = .connectivity :=
    List.mem_filter.2 ⟨hd, decide_eq_true ⟨hde, htype⟩⟩
  exact absurd (hnone.subset hmem) List.not_mem_nil

/-- Any other has one. -/
theorem exists_connectivity_closing (h : p.Course) (hexplained : x.Explained)
    (hincomplete : x.isComplete = false) :
    ∃ d, (p.closing t).discrepancies.filter
        (fun d => d.exchange = x.exchange ∧ d.type = .connectivity) = [d] ∧
      d.severity = .critical := by
  obtain ⟨error, herror⟩ := Option.isSome_iff_exists.1 (hexplained.1 hincomplete)
  have hone := h.connectivity_closing ht hx
  rw [Detection.connectivity, herror] at hone
  refine ⟨_, List.perm_singleton.1 hone, ?_⟩
  rw [Finding.severity_discrepancy]
  rfl

/-- The categories that were not compared are reported, if others were. -/
theorem skipped_closing (h : p.Course) {ledger : LedgerSnapshot} (hview : p.view = .read ledger) :
    (((p.closing t).discrepancies.filter
      fun d => d.exchange = x.exchange ∧ d.type = .detectionSkipped).map (·.entity)).Perm
      ((if x.isUsable then x.degraded.members else []).map (·.name)) := by
  obtain ⟨ds, hds⟩ := exists_compare ht hx
  rw [hview] at hds
  have hfound := LedgerView.filter_skipped_found hds
  rw [← hview] at hfound
  refine (((h.filter_closing hx .detectionSkipped).trans hfound).map (·.entity)).trans ?_
  rw [List.map_map, List.map_map]
  refine .of_eq (List.map_congr_left fun c _ => ?_)
  exact Finding.entity_discrepancy _ _ _

end Found

/-- Without the ledger, nothing is reported but failed collections. -/
theorem unread_closing (h : p.Course)
    (hunread : ¬ ∃ ledger, .ledgerRead ledger ∈ p.completions) :
    (∀ d ∈ (p.closing t).discrepancies, d.type = .connectivity) ∧
      (p.closing t).ledgerVersion = none ∧ (p.closing t).finalStatus = .failed := by
  have hview : ∀ ledger, p.view ≠ .read ledger := fun ledger hview =>
    hunread ⟨ledger, (Completion.mem_readings.1 (LedgerView.mem_of_ofReadings hview)).1⟩
  refine ⟨fun d hd => ?_, ?_, ?_⟩
  · rw [discrepancies_closing, Discrepancy.mem_sort, List.mem_flatMap] at hd
    obtain ⟨x, -, hx⟩ := hd
    exact LedgerView.type_of_mem_found_of_unread hview hx
  · rw [closing_frame, ← Option.not_isSome_iff_eq_none]
    exact mt isSome_ledgerVersion_opened.1 hunread
  · refine Session.finalStatus_of_not_reliable fun hreliable => hunread ?_
    exact (h.reliable_closing_iff.1 hreliable).2.1

/-- **Lost data is announced, once.**  Whatever the exchanges answer and however the read of the
ledger ends, and with or without a deadline, an exchange has one critical discrepancy for its
connectivity unless it is complete.  If the ledger was read, each category that was lost is
announced besides, where others were compared; if it was not, nothing else is reported. -/
theorem announces_lost_data (h : p.Course) (hcancelled : p.interruption ≠ some .cancelled)
    (hlost : .lost ∉ p.completions) (ht : SessionRun.Comparable t p.completions)
    (hcollected : ∀ s, .collected s ∈ p.completions → s.Collected) :
    ∃ r, p.perform t = .ok r ∧
      (∀ e, r.session.outcomes.get? e = some .complete →
        ∀ d ∈ r.session.discrepancies, d.exchange = e → d.type ≠ .connectivity) ∧
      (∀ e o, r.session.outcomes.get? e = some o → o ≠ .complete →
        ∃ d, r.session.discrepancies.filter
          (fun d => d.exchange = e ∧ d.type = .connectivity) = [d] ∧ d.severity = .critical) ∧
      ((∃ ledger, .ledgerRead ledger ∈ p.completions) →
        (∀ e, r.session.outcomes.get? e = some .degraded →
          ∃ s, .collected s ∈ p.completions ∧ s.exchange = e ∧
            ((r.session.discrepancies.filter
              (fun d => d.exchange = e ∧ d.type = .detectionSkipped)).map (·.entity)).Perm
                (s.degraded.members.map (·.name))) ∧
        (∀ e, r.session.outcomes.get? e = some .failed →
          r.session.discrepancies.filter
            (fun d => d.exchange = e ∧ d.type = .detectionSkipped) = [])) ∧
      ((¬ ∃ ledger, .ledgerRead ledger ∈ p.completions) →
        (∀ d ∈ r.session.discrepancies, d.type = .connectivity) ∧
        r.session.ledgerVersion = none ∧ r.session.status = .failed) := by
  have houtcome : ∀ e o, (p.closing t).outcomes.get? e = some o →
      ∃ x ∈ p.recorded, x.exchange = e ∧ ExchangeOutcome.ofSnapshot x = o := by
    intro e o ho
    rcases h.outcome_closing_iff.1 ho with hx | ⟨he, -⟩
    · exact hx
    · rw [h.failed_eq_nil hcancelled hlost] at he
      cases he
  refine ⟨_, h.perform_eq ht, ?_, ?_, ?_, h.unread_closing⟩
  · intro e he d hd hde
    obtain ⟨x, hx, rfl, hcomplete⟩ := houtcome e .complete he
    exact h.not_connectivity_closing ht hx (explained_of_mem_recorded hcollected hx)
      (ExchangeSnapshot.outcome_eq_complete_iff.1 hcomplete) hd hde
  · intro e o ho hne
    obtain ⟨x, hx, rfl, rfl⟩ := houtcome e o ho
    have hincomplete : x.isComplete = false := Bool.eq_false_iff.2 fun hcomplete =>
      hne (ExchangeSnapshot.outcome_eq_complete_iff.2 hcomplete)
    exact h.exists_connectivity_closing ht hx (explained_of_mem_recorded hcollected hx) hincomplete
  · rintro ⟨ledger, hledger⟩
    have hview : p.view = .read ledger := h.view_eq hledger rfl
    constructor
    · intro e he
      obtain ⟨x, hx, rfl, hdegraded⟩ := houtcome e .degraded he
      have husable := ExchangeSnapshot.isUsable_of_outcome hdegraded
      have hskipped := h.skipped_closing ht hx hview
      rw [if_pos husable] at hskipped
      rcases recorded_cases hx with ⟨y, hy, time, rfl⟩ | ⟨e, time, error, time', rfl⟩
      · exact ⟨y, hy, rfl, hskipped⟩
      · cases husable
    · intro e he
      obtain ⟨x, hx, rfl, hfailure⟩ := houtcome e .failed he
      have hunusable := ExchangeSnapshot.not_isUsable_of_outcome hfailure
      have hskipped := h.skipped_closing ht hx hview
      rw [if_neg (Bool.eq_false_iff.1 hunusable)] at hskipped
      exact List.map_eq_nil_iff.1 hskipped.eq_nil

/-- An exchange that did not tell its orders. -/
theorem announces_lost_data_without_orders :
    let s : ExchangeSnapshot := .ofFetches (.of .exchange "alpha") default
      [(.balances, .ok (.balances .empty)), (.orders, .error (.storage "no orders"))]
    let ledger : LedgerSnapshot := ⟨default, 1, default, .empty⟩
    let p : SessionPlan :=
      { id := default, startTime := default, exchanges := [s.exchange]
        completions := [.collected s, .ledgerRead ledger], interruption := none
        now := fun _ => default, endTime := default }
    ∃ r d, p.perform .standard = .ok r ∧
      r.session.discrepancies.filter
        (fun d => d.exchange = s.exchange ∧ d.type = .connectivity) = [d] ∧
      d.severity = .critical := by
  intro s ledger p
  have hcourse : p.Course := by
    refine ⟨List.cons_ne_nil _ _, List.nodup_singleton _, [.collection s.exchange, .ledger],
      by simp, ?_, ?_, fun _ => ?_⟩
    · exact fun task htask => by simpa [tasks, p, or_comm] using htask
    · exact .cons (.collected s) (.cons (.ledgerRead ledger) .nil)
    · exact fun task htask => by simpa [tasks, p, or_comm] using htask
  have hlost : .lost ∉ p.completions := by simp [p]
  have ht : SessionRun.Comparable .standard p.completions := by
    intro ledger' x hledger hx
    simp only [p, List.mem_cons, Completion.ledgerRead.injEq, Completion.collected.injEq,
      reduceCtorEq, List.not_mem_nil, or_false, false_or] at hledger hx
    subst hledger hx
    exact ⟨_, rfl⟩
  have hcollected : ∀ s', .collected s' ∈ p.completions → s'.Collected := by
    intro s' hs'
    simp only [p, List.mem_cons, Completion.collected.injEq, reduceCtorEq, List.not_mem_nil,
      or_false] at hs'
    rw [hs']
    exact ⟨default, _, rfl⟩
  obtain ⟨r, hr, -, hone, -, -⟩ := announces_lost_data hcourse (by simp [p]) hlost ht hcollected
  have hdegraded : r.session.outcomes.get? s.exchange = some .degraded := by
    obtain rfl : _ = r := Except.ok.inj ((hcourse.perform_eq ht).symm.trans hr)
    exact (hcourse.outcome_closing_iff (t := .standard)).2 (.inl ⟨_, List.mem_cons_self, rfl, rfl⟩)
  obtain ⟨d, hd, hcritical⟩ := hone s.exchange .degraded hdegraded (by decide)
  exact ⟨r, d, hr, hd, hcritical⟩

end Course
end SessionPlan

end Reconciliation
