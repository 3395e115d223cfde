/-
# What stops a session

Snapshots are compared at different points of a session, but an overflow in any of them ends the
whole of it: there is no report, and what was found in other exchanges is lost.

* `SessionRun.comparable_iff_exists_run`: a run gets through its completions only if every
  snapshot can be compared with the ledger;
* `SessionPlan.Course.reports_iff`: there is a report exactly if every number is in range.
-/
import Reconciliation.Proofs.Compare.Overflow
import Reconciliation.Proofs.Session.Settlement

namespace Reconciliation

/-! ## 1. Runs -/

namespace SessionRun

variable {t : Tolerances} {s : Session} {cs : List Completion} {c : Completion} {r : SessionRun}
  {ledger : LedgerSnapshot} {x : ExchangeSnapshot}

theorem exists_compare_of_recordCompared {l : List ExchangeSnapshot}
    (h : ∃ s', l.foldlM (recordCompared t ledger) s = .ok s') :
    ∀ x ∈ l, ∃ ds, x.compareWithLedger t ledger = .ok ds := by
  induction l generalizing s with
  | nil => exact fun x hx => absurd hx List.not_mem_nil
  | cons x rest ih =>
    rw [List.foldlM_cons, exists_bind_eq_ok_iff] at h
    obtain ⟨s', hs', hrest⟩ := h
    obtain ⟨ds, hds, -⟩ := bind_eq_ok_iff.1 hs'
    exact List.forall_mem_cons.2 ⟨⟨ds, hds⟩, ih hrest⟩

/-- A snapshot that was compared at some time can be compared at any. -/
theorem exists_compare_of_capturedOn {time : Instant}
    (h : ∃ ds, (x.capturedOn time).compareWithLedger t ledger = .ok ds) :
    ∃ ds, x.compareWithLedger t ledger = .ok ds :=
  exists_compare_capturedOn h x.capturedAt

/-- A snapshot that comes after the ledger is compared with it. -/
theorem exists_compare_of_collect (hledger : r.ledger = .read ledger)
    (h : ∃ r', r.collect t x = .ok r') : ∃ ds, x.compareWithLedger t ledger = .ok ds := by
  obtain ⟨r', hr'⟩ := h
  obtain ⟨session, view, waiting, lastCaptured⟩ := r
  cases hledger
  obtain ⟨s', hs', -⟩ := bind_eq_ok_iff.1 hr'
  obtain ⟨ds, hds, -⟩ := bind_eq_ok_iff.1 hs'
  exact exists_compare_of_capturedOn ⟨ds, hds⟩

/-- All snapshots that came before it are compared with the ledger when it is read. -/
theorem Progress.exists_compare_of_readLedger (h : Progress t s cs r)
    (hcs : Completion.readings cs = []) (hr : ∃ r', r.readLedger t ledger = .ok r')
    (hx : .collected x ∈ cs) : ∃ ds, x.compareWithLedger t ledger = .ok ds := by
  obtain ⟨-, hwaiting, -⟩ := h.waiting_eq hcs
  obtain ⟨y, hy, time, rfl⟩ : ∃ y ∈ r.waiting, ExchangeSnapshot.Recaptured x y := by
    rw [hwaiting]
    exact ExchangeSnapshot.exists_mem_taken (Completion.mem_snapshots.2 hx)
  obtain ⟨r', hr'⟩ := hr
  obtain ⟨s', hs', -⟩ := bind_eq_ok_iff.1 hr'
  exact exists_compare_of_capturedOn (exists_compare_of_recordCompared ⟨s', hs'⟩ _ hy)

/-- Of a snapshot and a ledger, the one that comes later has them compared. -/
theorem Progress.comparable_concat (h : Progress t s cs r)
    (hone : (Completion.readings (cs ++ [c])).length ≤ 1) (ht : Comparable t cs)
    (hr : ∃ r', r.complete t c = .ok r') : Comparable t (cs ++ [c]) := by
  intro ledger x hledger hx
  rw [List.mem_append, List.mem_singleton] at hledger hx
  rcases hledger with hledger | rfl
  · rcases hx with hx | rfl
    · exact ht ledger x hledger hx
    · have hone' := Completion.readings_length_le_of_concat hone
      have hview : r.ledger = .read ledger := by
        rw [h.ledger, Completion.readings_eq_of_mem hone' hledger rfl]
        rfl
      exact exists_compare_of_collect hview hr
  · rcases hx with hx | hx
    · exact h.exists_compare_of_readLedger (Completion.readings_eq_nil_of_concat hone rfl) hr hx
    · cases hx

/-- **A run gets through its completions exactly if every comparison comes out.** -/
theorem comparable_iff_exists_run (hone : (Completion.readings cs).length ≤ 1) :
    Comparable t cs ↔ ∃ r, cs.foldlM (SessionRun.complete t) (.start s) = .ok r := by
  constructor
  · intro ht
    obtain ⟨r, hr, -⟩ := Progress.exists_run hone ht
    exact ⟨r, hr⟩
  · intro hrun
    induction cs using List.reverseRecOn with
    | nil => exact fun ledger x hledger => absurd hledger List.not_mem_nil
    | append_singleton cs c ih =>
      have hone' := Completion.readings_length_le_of_concat hone
      rw [List.foldlM_append, exists_bind_eq_ok_iff] at hrun
      obtain ⟨r, hr, hlast⟩ := hrun
      have ht := ih hone' ⟨r, hr⟩
      obtain ⟨r', hr', hprogress⟩ := Progress.exists_run hone' ht
      obtain rfl : r = r' := Except.ok.inj (hr.symm.trans hr')
      refine hprogress.comparable_concat hone ht ?_
      rw [List.foldlM_cons, exists_bind_eq_ok_iff] at hlast
      obtain ⟨r', hr', -⟩ := hlast
      exact ⟨r', hr'⟩

end SessionRun

/-! ## 2. Reports -/

namespace SessionPlan
namespace Course

variable {p : SessionPlan} {t : Tolerances}

/-- **A session has a report exactly if every number is in range** that a comparison of one of its
snapshots with the ledger computes. -/
theorem reports_iff (h : p.Course) : (∃ report, p.perform t = .ok report) ↔
    ∀ ledger x, .ledgerRead ledger ∈ p.completions → .collected x ∈ p.completions →
      Detection.InRange t x (ledger.expected x.exchange) := by
  have hcomparable : SessionRun.Comparable t p.completions ↔
      ∀ ledger x, .ledgerRead ledger ∈ p.completions → .collected x ∈ p.completions →
        Detection.InRange t x (ledger.expected x.exchange) := by
    refine forall_congr' fun ledger => forall_congr' fun x => ?_
    rw [← Detection.exists_detect_iff, ExchangeSnapshot.exists_compareWithLedger_iff]
  rw [← hcomparable]
  constructor
  · rintro ⟨report, hreport⟩
    obtain ⟨r, hr, -⟩ := bind_eq_ok_iff.1 hreport
    exact (SessionRun.comparable_iff_exists_run h.readings_length_le).2 ⟨r, hr⟩
  · intro ht
    exact ⟨_, h.perform_eq ht⟩

end Course
end SessionPlan

end Reconciliation
