/-
# Looser tolerances find nothing new

What tolerances allow is a rounded product, but rounding keeps the order of results, so looser
tolerances allow at least as much.  That does not make fewer findings of more: a balance that was
malformed may come to be compared, and be found to diverge.  But then its asset had a finding
before, namely that of the malformed balance.  So it is the subjects that become fewer, and the
severity of what is still found does not rise.

* `Tolerances.Loosened`: the second tolerances allow at least as much, and grade alike;
* `Tolerances.within_of_loosened`: what is within tolerance stays so;
* `Milder`: findings about no other subject, and of no higher severity;
* `ExchangeSnapshot.compareWithLedger_loosened`: that is what looser tolerances give.
-/
import Reconciliation.Proofs.Compare.Subject
import Reconciliation.Proofs.Compare.Tolerances

namespace Reconciliation

/-! ## 1. Tolerances -/

namespace Tolerances

/-- `t.Loosened t'`: the second tolerances allow at least as much, and call the same critical. -/
structure Loosened (t t' : Tolerances) : Prop where
  absolute : t.absolute ≤ t'.absolute
  relative : t.relative ≤ t'.relative
  criticalRatio : Decimal.Same t.criticalRatio t'.criticalRatio

variable {t t' : Tolerances} {expected actual delta : Decimal}

/-- Looser tolerances allow at least as much. -/
theorem allowance_le_of_loosened (h : t.Loosened t') {a a' : Decimal}
    (ha : t.allowance expected = .ok a) (ha' : t'.allowance expected = .ok a') : a ≤ a' := by
  have hexact : max t.absolute.value (t.relative.value * |expected.value|) ≤
      max t'.absolute.value (t'.relative.value * |expected.value|) :=
    max_le_max (Decimal.le_iff_value_le.1 h.absolute)
      (mul_le_mul_of_nonneg_right (Decimal.le_iff_value_le.1 h.relative) (abs_nonneg _))
  exact Decimal.le_iff_value_le.2 ((rounds_allowance ha).value_le (rounds_allowance ha') hexact)

/-- What is within tolerance stays so. -/
theorem within_of_loosened (h : t.Loosened t') (hw : t.within expected actual = .ok true) {w : Bool}
    (hw' : t'.within expected actual = .ok w) : w = true := by
  obtain ⟨divergence, hdivergence, a, ha, hle⟩ := within_eq_ok_iff.1 hw
  obtain ⟨divergence', hdivergence', a', ha', rfl⟩ := within_eq_ok_iff.1 hw'
  obtain rfl : divergence = divergence' := Except.ok.inj (hdivergence.symm.trans hdivergence')
  have hle := Decimal.le_iff_value_le.1 (of_decide_eq_true hle)
  have haa := Decimal.le_iff_value_le.1 (allowance_le_of_loosened h ha ha')
  exact decide_eq_true (Decimal.le_iff_value_le.2 (hle.trans haa))

theorem severityFor_of_loosened (h : t.Loosened t') :
    t'.severityFor expected delta = t.severityFor expected delta := by
  have hlt : ∀ ratio : Decimal, ratio < t'.criticalRatio ↔ ratio < t.criticalRatio := by
    intro ratio
    rw [Decimal.lt_iff_value_lt, Decimal.lt_iff_value_lt,
      Decimal.same_iff_value_eq.1 h.criticalRatio]
  simp only [severityFor, hlt]

end Tolerances

namespace Detection

variable {t t' : Tolerances} {s : ExchangeSnapshot} {x : ExpectedState} {c : Category}
  {e : Subject} {f f' : Finding} {findings findings' : List Finding}

/-! ## 2. Checks -/

/-- A balance that can be believed stays so. -/
theorem credible_of_loosened (h : t.Loosened t') {b : Balance} (hb : b.Credible t)
    {o : Option RecordProblem} (ho : balanceProblem t' b = .ok o) : b.Credible t' := by
  obtain ⟨htotal, hfree, hlocked, parts, hparts, hwithin⟩ := hb
  obtain ⟨-, hallowance⟩ := exists_balanceProblem_iff.1 ⟨o, ho⟩ htotal hfree hlocked
  obtain ⟨w, hw⟩ := Tolerances.exists_within_iff.2
    ⟨(Tolerances.exists_within_iff.1 ⟨true, hwithin⟩).1, hallowance⟩
  obtain rfl := Tolerances.within_of_loosened h hwithin hw
  exact ⟨htotal, hfree, hlocked, parts, hparts, hw⟩

theorem statusSeverity_le_of_loosened (h : t.Loosened t') {a b : Order} {v v' : Severity}
    (hv : statusSeverity t a b = .ok v) (hv' : statusSeverity t' a b = .ok v') :
    v'.rank ≤ v.rank := by
  simp only [statusSeverity, bind_eq_ok_iff, pure_eq_ok_iff] at hv hv'
  obtain ⟨n, hn, m, hm, w, hw, rfl⟩ := hv
  obtain ⟨n', hn', m', hm', w', hw', rfl⟩ := hv'
  obtain rfl : n = n' := Except.ok.inj (hn.symm.trans hn')
  obtain rfl : m = m' := Except.ok.inj (hm.symm.trans hm')
  cases w with
  | true =>
    rw [Tolerances.within_of_loosened h hw hw']
  | false => cases w' <;> decide

/-- `MilderCheck y y'`: where the second check finds something, so does the first, if it comes out,
and nothing less severe. -/
def MilderCheck (y y' : Checked (Option Finding)) : Prop :=
  ∀ o f', y = .ok o → y' = .ok (some f') → ∃ f, o = some f ∧ f'.severity.rank ≤ f.severity.rank

theorem milderCheck_refl (y : Checked (Option Finding)) : MilderCheck y y := by
  rintro o f' h h'
  exact ⟨f', Except.ok.inj (h.symm.trans h'), Nat.le_refl _⟩

/-- Two amounts that no longer count as equal did not before, and are graded alike. -/
theorem milderCheck_amounts (h : t.Loosened t') {expected actual : Decimal}
    {divergent : Decimal → Severity → Finding} :
    MilderCheck
      (do
        if ← t.within expected actual then return none
        else
          let delta ← actual.sub expected
          let severity ← t.severityFor expected delta
          return some (divergent delta severity))
      (do
        if ← t'.within expected actual then return none
        else
          let delta ← actual.sub expected
          let severity ← t'.severityFor expected delta
          return some (divergent delta severity)) := by
  intro o f' ho hf'
  simp only [bind_eq_ok_iff] at ho hf'
  obtain ⟨w, hw, ho⟩ := ho
  obtain ⟨w', hw', hf'⟩ := hf'
  cases w' with
  | true => cases hf'
  | false =>
    cases w with
    | true => cases Tolerances.within_of_loosened h hw hw'
    | false =>
      simp only [Bool.false_eq_true, if_false, bind_eq_ok_iff, pure_eq_ok_iff,
        Tolerances.severityFor_of_loosened h] at ho hf'
      obtain ⟨delta, hdelta, v, hv, rfl⟩ := ho
      obtain ⟨delta', hdelta', v', hv', hf'⟩ := hf'
      obtain rfl : delta = delta' := Except.ok.inj (hdelta.symm.trans hdelta')
      obtain rfl : v = v' := Except.ok.inj (hv.symm.trans hv')
      refine ⟨_, rfl, ?_⟩
      rw [← Option.some.inj hf']

theorem milderCheck_compareBalance (h : t.Loosened t') (a : AssetId) (b b' : Option Balance) :
    MilderCheck (compareBalance t a b b') (compareBalance t' a b b') := by
  cases b with
  | none => cases b' <;> exact milderCheck_refl _
  | some b =>
    cases b' with
    | none => exact milderCheck_refl _
    | some b' => exact milderCheck_amounts h

theorem milderCheck_compareOrder (h : t.Loosened t') (a b : Option (Option Order)) :
    MilderCheck (compareOrder t a b) (compareOrder t' a b) := by
  match a, b with
  | some none, _ => exact milderCheck_refl _
  | none, some none => exact milderCheck_refl _
  | some (some _), some none => exact milderCheck_refl _
  | some (some _), none => exact milderCheck_refl _
  | none, some (some _) => exact milderCheck_refl _
  | none, none => exact milderCheck_refl _
  | some (some a), some (some b) =>
    intro o f' ho hf'
    simp only [compareOrder] at ho hf'
    split at ho
    · rename_i hstatus
      rw [if_pos hstatus] at hf'
      cases hf'
    · rename_i hstatus
      rw [if_neg hstatus] at hf'
      simp only [bind_eq_ok_iff, pure_eq_ok_iff] at ho hf'
      obtain ⟨v, hv, rfl⟩ := ho
      obtain ⟨v', hv', hf'⟩ := hf'
      refine ⟨_, rfl, ?_⟩
      rw [← Option.some.inj hf']
      exact statusSeverity_le_of_loosened h hv hv'

theorem milderCheck_compareExposure (h : t.Loosened t') (symbol : Symbol)
    (p p' : Option Position) :
    MilderCheck (compareExposure t symbol p p') (compareExposure t' symbol p p') := by
  intro o f' ho hf'
  unfold compareExposure at ho hf'
  simp only [bind_eq_ok_iff (x := Decimal.mul _ _)] at ho hf'
  obtain ⟨n, hn, m, hm, ho⟩ := ho
  obtain ⟨n', hn', m', hm', hf'⟩ := hf'
  obtain rfl : n = n' := Except.ok.inj (hn.symm.trans hn')
  obtain rfl : m = m' := Except.ok.inj (hm.symm.trans hm')
  exact milderCheck_amounts h o f' ho hf'

theorem milderCheck_comparePosition (h : t.Loosened t') (symbol : Symbol)
    (p p' : Option (Option Position)) :
    MilderCheck (comparePosition t symbol p p') (comparePosition t' symbol p p') := by
  match p, p' with
  | some none, _ => exact milderCheck_refl _
  | none, some none => exact milderCheck_refl _
  | some (some _), some none => exact milderCheck_refl _
  | some (some _), none => exact milderCheck_compareExposure h symbol _ _
  | none, some (some _) => exact milderCheck_compareExposure h symbol _ _
  | none, none => exact milderCheck_compareExposure h symbol _ _
  | some (some _), some (some _) => exact milderCheck_compareExposure h symbol _ _

/-! ## 3. Scans -/

/-- `Milder findings findings'`: the second findings are about no other subject, and what they say
of the values of one is no more severe. -/
structure Milder (findings findings' : List Finding) : Prop where
  concerned : ∀ f' ∈ findings', ∀ e, f'.Concerns e → ∃ f ∈ findings, f.Concerns e
  rank_le : ∀ f ∈ findings, ∀ f' ∈ findings', ∀ e, f.Compares e → f'.Compares e →
    f'.severity.rank ≤ f.severity.rank

/-- Scans are milder check by check, but for the keys whose records were malformed. -/
theorem Scan.milder_of_run {κ : Type} {subject : κ → Subject} {a b : Scan κ}
    (ha : a.About subject c) (hb : b.About subject c) (hkeys : b.keys = a.keys)
    (hproblems : ∀ source, ∀ k ∈ (b.problems source).map (·.1), k ∈ (a.problems source).map (·.1))
    (hcheck : ∀ k, (a.check k = .ok none ∧ ∃ source, k ∈ (a.problems source).map (·.1)) ∨
      MilderCheck (a.check k) (b.check k))
    (h : a.run subject = .ok findings) (h' : b.run subject = .ok findings') :
    Milder findings findings' := by
  have hmalformed : ∀ {source k}, k ∈ (a.problems source).map (·.1) →
      ∃ f ∈ findings, f.Concerns (subject k) := by
    intro source k hk
    obtain ⟨p, hp, rfl⟩ := List.mem_map.1 hk
    exact ⟨_, (mem_of_run h).2 (.inl ⟨source, p, hp, rfl⟩), (ha.concerns_problem_iff hp).2 rfl⟩
  refine ⟨fun f' hf' e he => ?_, fun f hf f' hf' e hfe hfe' => ?_⟩
  · rcases (mem_of_run h').1 hf' with ⟨source, p, hp, rfl⟩ | ⟨k, hk, hkf⟩
    · obtain rfl := (hb.concerns_problem_iff hp).1 he
      exact hmalformed (hproblems source _ (List.mem_map_of_mem hp))
    · obtain rfl := (hb.concerns_iff hkf).1 he
      rw [hkeys] at hk
      rcases hcheck k with ⟨-, source, hkp⟩ | hmilder
      · exact hmalformed hkp
      · -- the first scan came out, and so did its check of this key
        obtain ⟨matched, hmatched, -⟩ := run_eq_ok_iff.1 h
        obtain ⟨o, ho⟩ := exists_gather_iff.1 ⟨matched, hmatched⟩ k hk
        obtain ⟨f, rfl, -⟩ := hmilder o f' ho hkf
        exact ⟨f, (mem_of_run h).2 (.inr ⟨k, hk, ho⟩), (ha.concerns_iff ho).2 rfl⟩
  · have hnot : ∀ {source key problem},
        ¬ (Finding.dataIntegrity source key problem).Compares e := by
      rintro source key problem ⟨hcompared, -⟩
      cases hcompared
    rcases (mem_of_run h).1 hf with ⟨source, p, hp, rfl⟩ | ⟨k, -, hkf⟩
    · exact absurd hfe hnot
    rcases (mem_of_run h').1 hf' with ⟨source, p, hp, rfl⟩ | ⟨k', -, hkf'⟩
    · exact absurd hfe' hnot
    obtain rfl : k = k' :=
      ha.injective (((ha.compares_iff hkf).1 hfe).trans ((hb.compares_iff hkf').1 hfe').symm)
    rcases hcheck k with ⟨hnone, -⟩ | hmilder
    · rw [hnone] at hkf
      cases hkf
    · obtain ⟨g, hg, hrank⟩ := hmilder _ f' hkf hkf'
      obtain rfl := Option.some.inj hg
      exact hrank

theorem milder_balanceScan (h : t.Loosened t') {balances : Source → SortedMap AssetId Balance}
    {problems problems' : Source → List (AssetId × RecordProblem)}
    (hproblems : ∀ source, balanceProblems t (balances source) = .ok (problems source))
    (hproblems' : ∀ source, balanceProblems t' (balances source) = .ok (problems' source))
    (hrun : (balanceScan t balances problems).run .asset = .ok findings)
    (hrun' : (balanceScan t' balances problems').run .asset = .ok findings') :
    Milder findings findings' := by
  have hfewer : ∀ source, ∀ a ∈ (problems' source).map (·.1), a ∈ (problems source).map (·.1) := by
    intro source a ha
    obtain ⟨b, hb, hcredible⟩ := (mem_problems_iff (hproblems' source)).1 ha
    obtain ⟨o, ho⟩ := exists_balanceProblem_iff.2
      (exists_balanceProblems_iff.1 ⟨_, hproblems' source⟩ a b hb)
    exact (mem_problems_iff (hproblems source)).2
      ⟨b, hb, fun hc => hcredible (credible_of_loosened h hc ho)⟩
  refine Scan.milder_of_run (about_balanceScan hproblems) (about_balanceScan hproblems') rfl hfewer
    (fun a => ?_) hrun hrun'
  by_cases ha : a ∈ (problems .ledger ++ problems .exchange).map (·.1)
  · left
    refine ⟨(check_balanceScan _ _ a).trans (checkExcept_of_mem ha), ?_⟩
    rw [List.map_append, List.mem_append] at ha
    rcases ha with ha | ha
    · exact ⟨.ledger, ha⟩
    · exact ⟨.exchange, ha⟩
  · right
    have ha' : a ∉ (problems' .ledger ++ problems' .exchange).map (·.1) := by
      rw [List.map_append, List.mem_append] at ha ⊢
      exact fun h => ha (h.imp (hfewer _ a) (hfewer _ a))
    rw [check_balanceScan, check_balanceScan, checkExcept_of_not_mem ha,
      checkExcept_of_not_mem ha']
    exact milderCheck_compareBalance h a _ _

theorem milder_indexScan {κ α : Type} [Ord κ] [Std.TransOrd κ] [Std.LawfulEqOrd κ]
    {subject : κ → Subject} {key : α → κ} {problem : α → Option RecordProblem}
    {repeated : RecordProblem}
    {judge judge' : κ → Option (Option α) → Option (Option α) → Checked (Option Finding)}
    {records : Source → List α}
    (ha : (indexScan key problem repeated judge records).About subject c)
    (ha' : (indexScan key problem repeated judge' records).About subject c)
    (hjudge : ∀ k a b, MilderCheck (judge k a b) (judge' k a b))
    (h : (indexScan key problem repeated judge records).run subject = .ok findings)
    (h' : (indexScan key problem repeated judge' records).run subject = .ok findings') :
    Milder findings findings' :=
  Scan.milder_of_run ha ha' rfl (fun _ _ hk => hk) (fun k => .inr (hjudge k _ _)) h h'

theorem milder_compareCategory (h : t.Loosened t') (hl : compareCategory t x s c = .ok findings)
    (hl' : compareCategory t' x s c = .ok findings') : Milder findings findings' := by
  cases hc : s.isDegraded c with
  | true =>
    rw [compareCategory_of_isDegraded hc, Except.ok.injEq] at hl hl'
    subst hl hl'
    exact ⟨fun f' hf' e he => ⟨f', hf', he⟩, fun f hf f' hf' e _ _ => by
      rw [List.mem_singleton.1 hf, List.mem_singleton.1 hf']⟩
  | false =>
    cases c with
    | balances =>
      obtain ⟨problems, hproblems, hrun⟩ := (compareCategory_balances_eq_ok_iff hc).1 hl
      obtain ⟨problems', hproblems', hrun'⟩ := (compareCategory_balances_eq_ok_iff hc).1 hl'
      exact milder_balanceScan h hproblems hproblems' hrun hrun'
    | orders =>
      rw [compareCategory_orders hc] at hl hl'
      exact milder_indexScan (about_orderScan _) (about_orderScan _)
        (fun _ => milderCheck_compareOrder h) hl hl'
    | positions =>
      rw [compareCategory_positions hc] at hl hl'
      exact milder_indexScan (about_positionScan _) (about_positionScan _)
        (milderCheck_comparePosition h) hl hl'

/-! ## 4. Everything -/

/-- **Looser tolerances find nothing new, and nothing worse.** -/
theorem milder_detect (h : t.Loosened t') (hl : detect t s x = .ok findings)
    (hl' : detect t' s x = .ok findings') : Milder findings findings' := by
  -- what concerns a subject is found in the category of the subject
  have hcategory : ∀ e : Subject, s.isUsable = true →
      Milder (findings.filter (·.category = some e.category))
        (findings'.filter (·.category = some e.category)) := fun e husable =>
    milder_compareCategory h (filter_category_detect hl husable e.category)
      (filter_category_detect hl' husable e.category)
  have hmem : ∀ {l : List Finding} {f : Finding} {e : Subject}, f ∈ l → f.Concerns e →
      f ∈ l.filter (·.category = some e.category) := fun hf he =>
    List.mem_filter.2 ⟨hf, decide_eq_true (Finding.category_of_concerns he)⟩
  constructor
  · intro f' hf' e he
    have husable := isUsable_of_category hl' hf' (Finding.category_of_concerns he)
    obtain ⟨f, hf, hfe⟩ := (hcategory e husable).concerned f' (hmem hf' he) e he
    exact ⟨f, List.mem_of_mem_filter hf, hfe⟩
  · intro f hf f' hf' e he he'
    have husable := isUsable_of_category hl hf (Finding.category_of_concerns (.inl he))
    exact (hcategory e husable).rank_le f (hmem hf (.inl he)) f' (hmem hf' (.inl he')) e he he'

end Detection

namespace ExchangeSnapshot

/-- **Loosening tolerances never flags anything new.**  If absolute and relative tolerance grow, or
stay, and the critical ratio has the same value, then every asset, order id or symbol that has a
discrepancy afterwards, on its values or on a malformed record, had one before; and one on its
values is no more severe than before. -/
theorem compareWithLedger_loosened {t t' : Tolerances} {s : ExchangeSnapshot}
    {ledger : LedgerSnapshot} {ds ds' : List Discrepancy} (h : t.Loosened t')
    (hds : s.compareWithLedger t ledger = .ok ds)
    (hds' : s.compareWithLedger t' ledger = .ok ds') (e : Subject) :
    ((∃ d' ∈ ds', d'.Concerns e) → ∃ d ∈ ds, d.Concerns e) ∧
      ∀ d ∈ ds, ∀ d' ∈ ds', d.Compares e → d'.Compares e → d'.severity.rank ≤ d.severity.rank := by
  obtain ⟨findings, hdetect, rfl⟩ := compareWithLedger_eq_ok_iff.1 hds
  obtain ⟨findings', hdetect', rfl⟩ := compareWithLedger_eq_ok_iff.1 hds'
  have hmilder := Detection.milder_detect h hdetect hdetect'
  constructor
  · rintro ⟨d', hd', he⟩
    obtain ⟨f', hf', rfl⟩ := mem_discrepancies.1 hd'
    obtain ⟨f, hf, hfe⟩ := hmilder.concerned f' hf' e (Finding.concerns_discrepancy.1 he)
    exact ⟨_, mem_discrepancies.2 ⟨f, hf, rfl⟩, Finding.concerns_discrepancy.2 hfe⟩
  · intro d hd d' hd' he he'
    obtain ⟨f, hf, rfl⟩ := mem_discrepancies.1 hd
    obtain ⟨f', hf', rfl⟩ := mem_discrepancies.1 hd'
    rw [Finding.compares_discrepancy] at he he'
    rw [Finding.severity_discrepancy, Finding.severity_discrepancy]
    exact hmilder.rank_le f hf f' hf' e he he'

/-- A balance that does not add up until one unit is tolerated, and is unexpected then; and an
order whose fills differ by one unit, which is critical until then. -/
theorem compareWithLedger_loosened_by_one :
    let t' : Tolerances := { Tolerances.standard with absolute := .one }
    let a : AssetId := .of .asset "BTC"
    let b : Balance := ⟨.one, .zero, .zero⟩
    let o : Order :=
      ⟨"1", .of .exchange "paper", .of .symbol "BTCUSDT", .buy, .one, none, .zero, none, .accepted,
        none, default⟩
    let o' : Order := { o with filledQuantity := .one, status := .filled }
    let s : ExchangeSnapshot :=
      { new o.exchange default with balances := .insert .empty a b, openOrders := [o'] }
    let ledger : LedgerSnapshot :=
      ⟨default, 1, default, .insert .empty s.exchange ⟨.empty, [o], []⟩⟩
    let findings : List Finding :=
      [.dataIntegrity .exchange a.text (.unbalancedTotal b), .orderStatusMismatch .critical o o']
    let findings' : List Finding := [.unexpectedAsset a .one, .orderStatusMismatch .warning o o']
    Tolerances.Loosened .standard t' ∧
      s.compareWithLedger .standard ledger = .ok (s.discrepancies findings) ∧
      s.compareWithLedger t' ledger = .ok (s.discrepancies findings') ∧
      (∃ d ∈ s.discrepancies findings, d.Concerns (.asset a)) ∧
      ∀ d ∈ s.discrepancies findings, ∀ d' ∈ s.discrepancies findings', d.Compares (.order "1") →
        d'.Compares (.order "1") → d'.severity.rank ≤ d.severity.rank := by
  intro t' a b o o' s ledger findings findings'
  have hloosened : Tolerances.Loosened .standard t' := ⟨by decide, by decide, by decide⟩
  have hdetect : Detection.detect .standard s (ledger.expected s.exchange) = .ok findings := by
    decide +kernel
  have hdetect' : Detection.detect t' s (ledger.expected s.exchange) = .ok findings' := by
    decide +kernel
  have h : s.compareWithLedger .standard ledger = .ok (s.discrepancies findings) :=
    compareWithLedger_eq_ok_iff.2 ⟨findings, hdetect, rfl⟩
  have h' : s.compareWithLedger t' ledger = .ok (s.discrepancies findings') :=
    compareWithLedger_eq_ok_iff.2 ⟨findings', hdetect', rfl⟩
  refine ⟨hloosened, h, h', ?_, (compareWithLedger_loosened hloosened h h' (.order "1")).2⟩
  have hcoin : ∃ d' ∈ s.discrepancies findings', d'.Concerns (.asset a) :=
    ⟨_, mem_discrepancies.2 ⟨.unexpectedAsset a .one, List.mem_cons_self, rfl⟩,
      .inl ⟨rfl, rfl⟩⟩
  exact (compareWithLedger_loosened hloosened h h' (.asset a)).1 hcoin

end ExchangeSnapshot

end Reconciliation
