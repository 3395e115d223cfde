/-
# Sessions do not depend on the order of their tasks

If nothing interrupts a session, its report holds what was found in each snapshot, in report
order.  When the ledger was read among the collections does not matter at all, and the order of
the collections only dates what was found.

* `SessionPlan.Course.closing_eq`: without an interruption nothing is left over;
* `SessionPlan.Course.redated_closing`: the session in the end after another order of collections;
* `SessionPlan.Course.confluent`: the reports.
-/
import Reconciliation.Proofs.Compare.Agreement
import Reconciliation.Proofs.Session.Settlement

namespace Reconciliation

/-! ## 1. Figures -/

theorem countSeverity_redated {l l' : List Discrepancy} (severity : Severity)
    (h : List.Forall₂ Discrepancy.Redated l l') :
    countSeverity severity l' = countSeverity severity l := by
  unfold countSeverity
  induction h with
  | nil => rfl
  | cons hd _ ih => rw [List.countP_cons, List.countP_cons, ih, hd.severity_eq]

/-- The figures of a session do not depend on when the discrepancies were found. -/
theorem ReportSummary.ofSession_redated {s : Session} {ds : List Discrepancy} (time : Instant)
    (h : List.Forall₂ Discrepancy.Redated s.discrepancies ds) :
    ReportSummary.ofSession { s with discrepancies := ds } time =
      ReportSummary.ofSession s time := by
  have hlength : ds.length = s.discrepancies.length := h.length_eq.symm
  simp only [ReportSummary.ofSession, hlength, countSeverity_redated _ h]

namespace SessionPlan
namespace Course

variable {p : SessionPlan} {t : Tolerances} {cs : List Completion}

/-! ## 2. Uninterrupted sessions -/

/-- Without an interruption nothing is recorded but the snapshots that were taken. -/
theorem recorded_eq (hinterruption : p.interruption = none) : p.recorded = p.taken := by
  have hi : ∀ limit, p.interruption ≠ some (.deadline limit) := by
    intro limit
    rw [hinterruption]
    exact nofun
  rw [recorded, placeholders_of_ne hi, List.append_nil]

/-- Nor does an exchange fail, if no task breaks off. -/
theorem closing_eq (h : p.Course) (hinterruption : p.interruption = none)
    (hlost : .lost ∉ p.completions) :
    p.closing t = p.opened.recordAll (p.view.found t) p.taken := by
  have hi : ∀ limit, p.interruption ≠ some (.deadline limit) := by
    intro limit
    rw [hinterruption]
    exact nofun
  rw [closing, recorded_eq hinterruption, failed_of_ne hi, h.missing_eq_nil hinterruption hlost,
    Session.recordFailures_nil]

/-! ## 3. Another order -/

/-- The end of the read of the ledger is heard of alike in any order. -/
theorem readings_eq_of_perm (h : p.Course) (hcs : p.completions.Perm cs) :
    Completion.readings cs = Completion.readings p.completions := by
  have hreadings : (Completion.readings p.completions).Perm (Completion.readings cs) :=
    hcs.filter _
  cases hp : Completion.readings p.completions with
  | nil =>
    rw [hp] at hreadings
    exact hreadings.symm.eq_nil
  | cons c rest =>
    have hc : c ∈ Completion.readings p.completions := hp ▸ List.mem_cons_self
    obtain ⟨hmem, hreading⟩ := Completion.mem_readings.1 hc
    rw [h.readings_eq hmem hreading] at hreadings
    rw [← hp, h.readings_eq hmem hreading]
    exact List.perm_singleton.1 hreadings.symm

/-- So is what the session knows of the ledger, and what it notes. -/
theorem view_opened_congr
    (hreadings : Completion.readings cs = Completion.readings p.completions) :
    { p with completions := cs }.view = p.view ∧
      { p with completions := cs }.opened = p.opened := by
  have hview : { p with completions := cs }.view = p.view := by
    rw [view, view, hreadings]
  refine ⟨hview, ?_⟩
  rw [opened, opened, hview, hreadings]

/-- Snapshots with other times and the same snapshots with yet others. -/
theorem recaptured_of_common {l m n : List ExchangeSnapshot}
    (h : List.Forall₂ ExchangeSnapshot.Recaptured l m)
    (h' : List.Forall₂ ExchangeSnapshot.Recaptured l n) :
    List.Forall₂ ExchangeSnapshot.Recaptured m n := by
  induction h generalizing n with
  | nil =>
    cases h'
    exact .nil
  | cons hx _ ih =>
    cases h' with
    | cons hx' hrest => exact .cons (hx.symm.trans hx') (ih hrest)

/-- In another order, the same snapshots are taken with other times. -/
theorem exists_perm_recaptured (hcs : p.completions.Perm cs) :
    ∃ l, p.taken.Perm l ∧
      List.Forall₂ ExchangeSnapshot.Recaptured l { p with completions := cs }.taken := by
  have hsnapshots : p.snapshots.Perm (Completion.snapshots cs) := hcs.filterMap _
  have htaken : List.Forall₂ ExchangeSnapshot.Recaptured p.snapshots p.taken :=
    ExchangeSnapshot.recaptured_taken
  have htaken' : List.Forall₂ ExchangeSnapshot.Recaptured (Completion.snapshots cs)
      { p with completions := cs }.taken := ExchangeSnapshot.recaptured_taken
  obtain ⟨l, hl, hperm⟩ := List.perm_comp_forall₂ hsnapshots.symm htaken
  exact ⟨l, hperm.symm, recaptured_of_common hl htaken'⟩

/-- **In another order, a session only dates what it found in other ways.** -/
theorem redated_closing (h : p.Course) (hinterruption : p.interruption = none)
    (hlost : .lost ∉ p.completions) (hcs : p.completions.Perm cs) :
    List.Forall₂ Discrepancy.Redated (p.closing t).discrepancies
        ({ p with completions := cs }.closing t).discrepancies ∧
      { p with completions := cs }.closing t = { p.closing t with
        discrepancies := ({ p with completions := cs }.closing t).discrepancies } := by
  have hlost' : .lost ∉ cs := fun hmem => hlost (hcs.symm.subset hmem)
  obtain ⟨hview, hopened⟩ := view_opened_congr (h.readings_eq_of_perm hcs)
  obtain ⟨l, hperm, hl⟩ := exists_perm_recaptured (p := p) hcs
  have hclosing : p.closing t = p.opened.recordAll (p.view.found t) l := by
    rw [h.closing_eq hinterruption hlost]
    exact Session.recordAll_perm (fun x d => LedgerView.exchange_of_mem_found) h.nodup_taken hperm
  have hclosing' : { p with completions := cs }.closing t =
      p.opened.recordAll (p.view.found t) { p with completions := cs }.taken := by
    have hclosing := closing_eq (p := { p with completions := cs }) (t := t) (h.reorder hcs)
      hinterruption hlost'
    rw [hclosing, hview, hopened]
  have hnodup : (l.map (·.exchange)).Nodup :=
    (hperm.map (·.exchange)).nodup_iff.1 h.nodup_taken
  have hnil : p.opened.discrepancies = [] := by
    rw [opened_frame]
    rfl
  rw [hclosing, hclosing']
  constructor
  · exact Session.redated_recordAll (fun x d => LedgerView.exchange_of_mem_found)
      (fun x => LedgerView.idByEntity_found) (fun x y => LedgerView.redated_found) hnil hnodup hl
  · exact Session.recordAll_recaptured hl p.opened.discrepancies

/-- Only the snapshots and the end of the read matter to a session. -/
theorem closing_congr (hsnapshots : Completion.snapshots cs = p.snapshots)
    (hreadings : Completion.readings cs = Completion.readings p.completions) :
    { p with completions := cs }.closing t = p.closing t := by
  obtain ⟨hview, hopened⟩ := view_opened_congr hreadings
  have hsame : { p with completions := cs }.snapshots = p.snapshots := hsnapshots
  unfold closing recorded taken placeholders failed missing
  rw [hopened, hview, hsame]

/-! ## 4. Reports -/

/-- **Sessions do not depend on the order of their tasks.**  The report of an uninterrupted session
holds what was found in every snapshot, in report order.  It is the same whenever the ledger was
read, and after another order of collections it differs in the times of its discrepancies and in
the ids that are derived from them. -/
theorem confluent (h : p.Course) (hinterruption : p.interruption = none)
    (hlost : .lost ∉ p.completions) (ht : SessionRun.Comparable t p.completions) :
    ∃ r, p.perform t = .ok r ∧
      (p.taken.map (·.exchange)).Perm p.exchanges ∧
      (∃ reading, Completion.readings p.completions = [reading]) ∧
      (∀ ledger, .ledgerRead ledger ∈ p.completions →
        ∃ found, p.taken.mapM (·.compareWithLedger t ledger) = .ok found ∧
          r.session.discrepancies = Discrepancy.sort found.flatten) ∧
      (∀ error, .ledgerFailed error ∈ p.completions →
        r.session.discrepancies = Discrepancy.sort (p.taken.flatMap (·.connectivity))) ∧
      (∀ before reading after before' after', p.completions = before ++ reading :: after →
        reading.isReading = true → before' ++ after' = before ++ after →
          { p with completions := before' ++ reading :: after' }.perform t = .ok r) ∧
      (∀ cs, p.completions.Perm cs → ∃ r', { p with completions := cs }.perform t = .ok r' ∧
        List.Forall₂ Discrepancy.Redated r.session.discrepancies r'.session.discrepancies ∧
        r'.session = { r.session with discrepancies := r'.session.discrepancies } ∧
        r'.summary = r.summary) := by
  have hperform := h.perform_eq ht
  have hrecorded := recorded_eq hinterruption
  have hdiscrepancies : (p.closing t).discrepancies =
      Discrepancy.sort (p.taken.flatMap (p.view.found t)) := by
    rw [discrepancies_closing, hrecorded]
  refine ⟨_, hperform, ?_, h.exists_reading hinterruption hlost, ?_, ?_, ?_, ?_⟩
  · have hexchanges : p.taken.map (·.exchange) = p.snapshots.map (·.exchange) :=
      ExchangeSnapshot.map_exchange_taken
    rw [hexchanges]
    exact h.exchanges_perm hinterruption hlost
  · intro ledger hledger
    have hview : p.view = .read ledger := h.view_eq hledger rfl
    refine ⟨p.taken.map (p.view.found t), ?_, ?_⟩
    · refine mapM_eq_ok fun x hx => ?_
      obtain ⟨ds, hds⟩ := exists_compare ht (hrecorded ▸ hx)
      rw [LedgerView.found_eq hds, ← hds, hview]
      rfl
    · rw [← List.flatMap_def]
      exact hdiscrepancies
  · intro error herror
    have hview : p.view = .unavailable := h.view_eq herror rfl
    rw [hview] at hdiscrepancies
    exact hdiscrepancies
  · intro before reading after before' after' hcs hreading hmoved
    have hperm : p.completions.Perm (before' ++ reading :: after') := by
      rw [hcs]
      refine List.perm_middle.trans (.trans ?_ List.perm_middle.symm)
      rw [hmoved]
    have hsnapshots : Completion.snapshots (before' ++ reading :: after') = p.snapshots := by
      have hnone : reading.snapshot? = none := by
        cases reading with
        | collected s => cases hreading
        | _ => rfl
      have hdrop : ∀ before after, Completion.snapshots (before ++ reading :: after) =
          Completion.snapshots (before ++ after) := by
        intro before after
        rw [Completion.snapshots_append, Completion.snapshots_append, Completion.snapshots,
          Completion.snapshots, List.filterMap_cons_none hnone]
        rfl
      rw [snapshots, hcs, hdrop, hdrop, hmoved]
    have ht' : SessionRun.Comparable t (before' ++ reading :: after') := fun ledger x hledger hx =>
      ht ledger x (hperm.symm.subset hledger) (hperm.symm.subset hx)
    have hperform' := perform_eq (p := { p with completions := before' ++ reading :: after' })
      (h.reorder hperm) ht'
    rw [hperform', closing_congr hsnapshots (h.readings_eq_of_perm hperm)]
  · intro cs hcs
    have ht' : SessionRun.Comparable t cs := fun ledger x hledger hx =>
      ht ledger x (hcs.symm.subset hledger) (hcs.symm.subset hx)
    obtain ⟨hredated, hsession⟩ := h.redated_closing (t := t) hinterruption hlost hcs
    refine ⟨_, perform_eq (p := { p with completions := cs }) (h.reorder hcs) ht', hredated, ?_, ?_⟩
    · show Session.finish _ _ = _
      rw [hsession]
      rfl
    · show ReportSummary.ofSession _ _ = _
      rw [hsession]
      exact ReportSummary.ofSession_redated _ hredated

/-- Two exchanges, one with an asset that the ledger does not know and an earlier clock.  Whether
the ledger is read between their collections or after both, the asset is reported at the time of
the other exchange; collected first, it is the same discrepancy with another time. -/
theorem confluent_two_exchanges :
    let a : ExchangeSnapshot := .new (.of .exchange "alpha") ⟨2, 0, by decide, by decide⟩
    let b : ExchangeSnapshot :=
      { ExchangeSnapshot.new (.of .exchange "beta") ⟨1, 0, by decide, by decide⟩ with
        balances := .insert .empty (.of .asset "BTC") (.ofFree .one) }
    let ledger : LedgerSnapshot := ⟨default, 1, default, .empty⟩
    let p : SessionPlan :=
      { id := default, startTime := default, exchanges := [a.exchange, b.exchange]
        completions := [.collected a, .ledgerRead ledger, .collected b], interruption := none
        now := fun _ => default, endTime := default }
    ∃ r, p.perform .standard = .ok r ∧
      r.session.discrepancies.map (fun d => (d.type, d.entity, d.detectedAt)) =
        [(.unexpectedAsset, "BTC", a.capturedAt)] ∧
      { p with completions := [.collected a, .collected b, .ledgerRead ledger] }.perform
        .standard = .ok r ∧
      ∃ r', { p with completions := [.collected b, .ledgerRead ledger, .collected a] }.perform
        .standard = .ok r' ∧
        List.Forall₂ Discrepancy.Redated r.session.discrepancies r'.session.discrepancies := by
  intro a b ledger p
  have hcourse : p.Course := by
    have horder : p.tasks.Perm [.collection a.exchange, .ledger, .collection b.exchange] :=
      .swap _ _ _
    refine ⟨nofun, by decide, _, by decide, horder.symm.subset, ?_, fun _ => horder.subset⟩
    exact .cons (.collected a) (.cons (.ledgerRead ledger) (.cons (.collected b) .nil))
  have hlost : .lost ∉ p.completions := by
    simp only [p, List.mem_cons, reduceCtorEq, List.not_mem_nil, or_self, not_false_eq_true]
  let finding : Finding := .unexpectedAsset (.of .asset "BTC") .one
  let later : ExchangeSnapshot := { b with capturedAt := a.capturedAt }
  have ha : a.compareWithLedger .standard ledger = .ok [] :=
    ExchangeSnapshot.compareWithLedger_eq_ok_iff.2 ⟨[], by decide +kernel, List.mergeSort_nil⟩
  have hb : b.compareWithLedger .standard ledger =
      .ok [finding.discrepancy b.exchange b.capturedAt] :=
    ExchangeSnapshot.compareWithLedger_eq_ok_iff.2
      ⟨[finding], by decide +kernel, List.mergeSort_singleton _⟩
  have hlater : later.compareWithLedger .standard ledger =
      .ok [finding.discrepancy b.exchange a.capturedAt] :=
    ExchangeSnapshot.compareWithLedger_eq_ok_iff.2
      ⟨[finding], by decide +kernel, List.mergeSort_singleton _⟩
  have ht : SessionRun.Comparable .standard p.completions := by
    intro ledger' x hledger hx
    simp only [p, List.mem_cons, Completion.ledgerRead.injEq, Completion.collected.injEq,
      reduceCtorEq, List.not_mem_nil, or_false, false_or] at hledger hx
    subst hledger
    rcases hx with rfl | rfl
    · exact ⟨_, ha⟩
    · exact ⟨_, hb⟩
  obtain ⟨r, hr, -, -, hread, -, hmoved, hpermuted⟩ := confluent hcourse rfl hlost ht
  have htaken : p.taken = [a, later] := rfl
  obtain ⟨found, hfound, hdiscrepancies⟩ := hread ledger (by simp [p])
  rw [htaken, List.mapM_cons, List.mapM_cons, ha, hlater] at hfound
  cases hfound
  have hsort : r.session.discrepancies = [finding.discrepancy b.exchange a.capturedAt] :=
    hdiscrepancies.trans (List.mergeSort_singleton _)
  have hswap : p.completions.Perm [.collected b, .ledgerRead ledger, .collected a] :=
    (List.reverse_perm p.completions).symm
  obtain ⟨r', hr', hredated, -⟩ := hpermuted _ hswap
  refine ⟨r, hr, ?_, ?_, r', hr', hredated⟩
  · rw [hsort]
    rfl
  · exact hmoved [.collected a] (.ledgerRead ledger) [.collected b]
      [.collected a, .collected b] [] rfl rfl rfl

end Course
end SessionPlan

end Reconciliation
