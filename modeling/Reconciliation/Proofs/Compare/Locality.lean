/-
# What is found about one subject is nobody else's business

The records of one subject can be added, removed, repeated or corrupted on either side without a
trace in what is found about the others.  All that the sides share between subjects are lists: of
keys, of records and of findings.  Each of them is left the same when one subject is taken out of
it, and each step from one list to the next, the final sort included, commutes with taking a
subject out.

* `ExpectedState.AgreesBut`: records that differ in one subject at most;
* `Scan.filter_run_eq`: scans that differ at one subject find the same about the others;
* `ExchangeSnapshot.compareWithLedger_local`: so do whole comparisons, and the books of other
  exchanges have no influence at all.
-/
import Reconciliation.Proofs.Compare.Subject

namespace Reconciliation

/-- `r.AgreesBut e r'`: the records differ in those of the subject at most. -/
structure ExpectedState.AgreesBut (e : Subject) (r r' : ExpectedState) : Prop where
  balances : ∀ a, .asset a ≠ e → r.balances.get? a = r'.balances.get? a
  orders : r.orders.filter (.order ·.id ≠ e) = r'.orders.filter (.order ·.id ≠ e)
  positions : r.positions.filter (.symbol ·.symbol ≠ e) =
    r'.positions.filter (.symbol ·.symbol ≠ e)

namespace Detection

variable {t : Tolerances} {s : ExchangeSnapshot} {x x' r : ExpectedState} {c : Category}
  {e : Subject} {findings findings' : List Finding}

/-! ## 1. Scans -/

namespace Scan

variable {κ : Type} {subject : κ → Subject} {a b : Scan κ}

/-- What a scan finds about the other subjects is what it finds without this one. -/
theorem About.filter_keyedFindings (h : a.About subject c) {matched : List Finding} :
    (keyedFindings (fun k => (subject k).text) a.problems matched).filter (¬ ·.Concerns e) =
      keyedFindings (fun k => (subject k).text)
        (fun source => (a.problems source).filter (subject ·.1 ≠ e))
        (matched.filter (¬ ·.Concerns e)) := by
  have hside : ∀ source,
      ((a.problems source).map fun p =>
        Finding.dataIntegrity source (subject p.1).text p.2).filter (¬ ·.Concerns e) =
      ((a.problems source).filter (subject ·.1 ≠ e)).map fun p =>
        Finding.dataIntegrity source (subject p.1).text p.2 := by
    intro source
    rw [List.filter_map]
    refine congrArg _ (List.filter_congr fun p hp => ?_)
    rw [Function.comp_apply, decide_eq_decide, h.concerns_problem_iff hp]
  rw [keyedFindings, keyedFindings, List.filter_append, List.filter_append, hside, hside]

theorem About.gather_filter (h : a.About subject c) {matched : List Finding}
    (hmatched : gather a.check a.keys = .ok matched) :
    gather a.check (a.keys.filter (subject · ≠ e)) = .ok (matched.filter (¬ ·.Concerns e)) :=
  Detection.gather_filter (fun _ _ hk => decide_eq_decide.2 (not_congr (h.concerns_iff hk)))
    hmatched

/-- **Scans that differ at one subject find the same about the others.** -/
theorem filter_run_eq (ha : a.About subject c) (hb : b.About subject c)
    (hkeys : a.keys.filter (subject · ≠ e) = b.keys.filter (subject · ≠ e))
    (hcheck : ∀ k, subject k ≠ e → a.check k = b.check k)
    (hproblems : ∀ source, (a.problems source).filter (subject ·.1 ≠ e) =
      (b.problems source).filter (subject ·.1 ≠ e))
    (h : a.run subject = .ok findings) (h' : b.run subject = .ok findings') :
    findings.filter (¬ ·.Concerns e) = findings'.filter (¬ ·.Concerns e) := by
  obtain ⟨matched, hmatched, rfl⟩ := run_eq_ok_iff.1 h
  obtain ⟨matched', hmatched', rfl⟩ := run_eq_ok_iff.1 h'
  have hsame : gather a.check (a.keys.filter (subject · ≠ e)) =
      gather b.check (b.keys.filter (subject · ≠ e)) := by
    rw [← hkeys]
    refine gather_congr fun k hk => hcheck k ?_
    simpa using (List.mem_filter.1 hk).2
  rw [ha.gather_filter hmatched, hb.gather_filter hmatched', Except.ok.injEq] at hsame
  rw [ha.filter_keyedFindings, hb.filter_keyedFindings, hsame, funext hproblems]

end Scan

/-! ## 2. Balances -/

/-- The malformed balances among some of the assets are decided by the balances of these. -/
theorem filter_balanceProblems_congr {p : AssetId → Bool} {m n : SortedMap AssetId Balance}
    {l l' : List (AssetId × RecordProblem)} (hp : ∀ a, p a → m.get? a = n.get? a)
    (h : balanceProblems t m = .ok l) (h' : balanceProblems t n = .ok l') :
    (l.filter fun q => p q.1) = l'.filter fun q => p q.1 := by
  have hkey : ∀ (b : AssetId × Balance) (q : AssetId × RecordProblem),
      (do return (← balanceProblem t b.2).map (b.1, ·)) = Except.ok (some q) → p q.1 = p b.1 :=
    fun _ _ hq => congrArg p (asset_of_balanceCheck hq)
  have hm := gather_filter hkey h
  have hn := gather_filter hkey h'
  rw [SortedMap.filter_entries_congr hp, hn, Except.ok.injEq] at hm
  exact hm.symm

theorem mem_map_filter_iff {κ β : Type} {subject : κ → Subject} {l : List (κ × β)} {k : κ}
    (hk : subject k ≠ e) : k ∈ (l.filter (subject ·.1 ≠ e)).map (·.1) ↔ k ∈ l.map (·.1) := by
  simp only [List.mem_map, List.mem_filter, decide_eq_true_iff]
  constructor
  · rintro ⟨q, ⟨hq, -⟩, rfl⟩
    exact ⟨q, hq, rfl⟩
  · rintro ⟨q, hq, rfl⟩
    exact ⟨q, ⟨hq, hk⟩, rfl⟩

theorem filter_balanceScan_eq {balances balances' : Source → SortedMap AssetId Balance}
    {problems problems' : Source → List (AssetId × RecordProblem)}
    (hagree : ∀ source a, .asset a ≠ e → (balances source).get? a = (balances' source).get? a)
    (hproblems : ∀ source, balanceProblems t (balances source) = .ok (problems source))
    (hproblems' : ∀ source, balanceProblems t (balances' source) = .ok (problems' source))
    (h : (balanceScan t balances problems).run .asset = .ok findings)
    (h' : (balanceScan t balances' problems').run .asset = .ok findings') :
    findings.filter (¬ ·.Concerns e) = findings'.filter (¬ ·.Concerns e) := by
  have hget : ∀ source a, decide (.asset a ≠ e) →
      (balances source).get? a = (balances' source).get? a := fun source a ha =>
    hagree source a (of_decide_eq_true ha)
  have hfilter : ∀ source, (problems source).filter (.asset ·.1 ≠ e) =
      (problems' source).filter (.asset ·.1 ≠ e) := fun source =>
    filter_balanceProblems_congr (hget source) (hproblems source) (hproblems' source)
  refine Scan.filter_run_eq (about_balanceScan hproblems) (about_balanceScan hproblems')
    (filter_unionKeys_congr (hget .ledger) (hget .exchange)) (fun a ha => ?_) hfilter h h'
  have hmalformed : ∀ source, a ∈ (problems source).map (·.1) ↔
      a ∈ (problems' source).map (·.1) := by
    intro source
    rw [← mem_map_filter_iff ha, hfilter, mem_map_filter_iff ha]
  simp only [check_balanceScan, checkExcept, List.map_append, List.mem_append, hmalformed,
    hagree _ a ha]

/-! ## 3. Records by key -/

section Index

variable {κ α : Type} [Ord κ] [Std.TransOrd κ] [Std.LawfulEqOrd κ] [DecidableEq κ]
  {key : α → κ} {problem : α → Option RecordProblem} {repeated : RecordProblem} {l l' : List α}
  {subject : κ → Subject}

/-- The records under another key are the same, and so is what the key stands for. -/
theorem get?_ofList_of_filter_eq
    (h : (l.filter fun a => subject (key a) ≠ e) = l'.filter fun a => subject (key a) ≠ e) {k : κ}
    (hk : subject k ≠ e) :
    (Index.ofList key problem repeated l).records.get? k =
      (Index.ofList key problem repeated l').records.get? k := by
  have hpart : ∀ l : List α,
      l.filter (key · = k) = (l.filter fun a => subject (key a) ≠ e).filter (key · = k) := by
    intro l
    rw [List.filter_filter]
    refine List.filter_congr fun a _ => ?_
    by_cases ha : key a = k <;> simp [ha, hk]
  exact Index.get?_ofList_congr (by rw [hpart, h, ← hpart])

theorem filter_indexScan_eq
    {judge : κ → Option (Option α) → Option (Option α) → Checked (Option Finding)}
    {records records' : Source → List α}
    (ha : (indexScan key problem repeated judge records).About subject c)
    (ha' : (indexScan key problem repeated judge records').About subject c)
    (hagree : ∀ source, ((records source).filter fun a => subject (key a) ≠ e) =
      (records' source).filter fun a => subject (key a) ≠ e)
    (h : (indexScan key problem repeated judge records).run subject = .ok findings)
    (h' : (indexScan key problem repeated judge records').run subject = .ok findings') :
    findings.filter (¬ ·.Concerns e) = findings'.filter (¬ ·.Concerns e) := by
  have hget : ∀ source k, subject k ≠ e →
      (Index.ofList key problem repeated (records source)).records.get? k =
        (Index.ofList key problem repeated (records' source)).records.get? k := fun source _ hk =>
    get?_ofList_of_filter_eq (hagree source) hk
  refine Scan.filter_run_eq ha ha' ?_ (fun k hk => ?_) (fun source => ?_) h h'
  · exact filter_unionKeys_congr (fun k hk => hget .ledger k (of_decide_eq_true hk))
      fun k hk => hget .exchange k (of_decide_eq_true hk)
  · simp only [indexScan, hget _ k hk]
  · simp only [indexScan]
    rw [Index.filter_problems_ofList (subject · ≠ e), hagree,
      ← Index.filter_problems_ofList (subject · ≠ e)]

end Index

/-! ## 4. Everything -/

theorem filter_compareCategory_eq
    (hagree : ∀ source, (s.sides x source).AgreesBut e ((s.withRecords r).sides x' source))
    (h : compareCategory t x s c = .ok findings)
    (h' : compareCategory t x' (s.withRecords r) c = .ok findings') :
    findings.filter (¬ ·.Concerns e) = findings'.filter (¬ ·.Concerns e) := by
  cases hc : s.isDegraded c with
  | true =>
    have hc' : (s.withRecords r).isDegraded c = true := hc
    rw [compareCategory_of_isDegraded hc, Except.ok.injEq] at h
    rw [compareCategory_of_isDegraded hc', Except.ok.injEq] at h'
    rw [← h, ← h']
  | false =>
    have hc' : (s.withRecords r).isDegraded c = false := hc
    cases c with
    | balances =>
      obtain ⟨problems, hproblems, hrun⟩ := (compareCategory_balances_eq_ok_iff hc).1 h
      obtain ⟨problems', hproblems', hrun'⟩ := (compareCategory_balances_eq_ok_iff hc').1 h'
      exact filter_balanceScan_eq (fun source => (hagree source).balances) hproblems hproblems'
        hrun hrun'
    | orders =>
      rw [compareCategory_orders hc] at h
      rw [compareCategory_orders hc'] at h'
      exact filter_indexScan_eq (about_orderScan _) (about_orderScan _)
        (fun source => (hagree source).orders) h h'
    | positions =>
      rw [compareCategory_positions hc] at h
      rw [compareCategory_positions hc'] at h'
      exact filter_indexScan_eq (about_positionScan _) (about_positionScan _)
        (fun source => (hagree source).positions) h h'

theorem filter_detect_eq
    (hagree : ∀ source, (s.sides x source).AgreesBut e ((s.withRecords r).sides x' source))
    (h : detect t s x = .ok findings) (h' : detect t (s.withRecords r) x' = .ok findings') :
    findings.filter (¬ ·.Concerns e) = findings'.filter (¬ ·.Concerns e) := by
  have husable : (s.withRecords r).isUsable = s.isUsable := rfl
  rcases detect_cases h with ⟨hs, rfl⟩ | ⟨hs, b, o, p, hb, ho, hp, rfl⟩ <;>
    rcases detect_cases h' with ⟨hs', rfl⟩ | ⟨hs', b', o', p', hb', ho', hp', rfl⟩
  · rfl
  · rw [husable, hs] at hs'
    cases hs'
  · rw [husable, hs] at hs'
    cases hs'
  · simp only [List.filter_append, filter_compareCategory_eq hagree hb hb',
      filter_compareCategory_eq hagree ho ho', filter_compareCategory_eq hagree hp hp']
    rfl

end Detection

namespace ExchangeSnapshot

theorem filter_concerns_discrepancies {s : ExchangeSnapshot} {findings : List Finding}
    {e : Subject} : (s.discrepancies findings).filter (¬ ·.Concerns e) =
      s.discrepancies (findings.filter (¬ ·.Concerns e)) := by
  rw [discrepancies, Discrepancy.filter_sort, List.filter_map, discrepancies]
  simp only [Function.comp_def, Finding.concerns_discrepancy]

/-- **Findings are local to their subject.**  What a comparison gives does not depend on the
ledger's books of other exchanges.  And if the records of both sides differ in those of one asset,
one order id or one symbol at most, then the discrepancies, where both comparisons come out, are
the same but for those about this one, in the same order. -/
theorem compareWithLedger_local (t : Tolerances) (s : ExchangeSnapshot) (ledger : LedgerSnapshot) :
    (∀ ledger' : LedgerSnapshot,
      ledger'.exchanges.get? s.exchange = ledger.exchanges.get? s.exchange →
        s.compareWithLedger t ledger' = s.compareWithLedger t ledger) ∧
    ∀ (e : Subject) (r : ExpectedState) (ledger' : LedgerSnapshot) (ds ds' : List Discrepancy),
      (ledger.expected s.exchange).AgreesBut e (ledger'.expected s.exchange) →
      s.reported.AgreesBut e r →
      s.compareWithLedger t ledger = .ok ds →
      (s.withRecords r).compareWithLedger t ledger' = .ok ds' →
        ds.filter (¬ ·.Concerns e) = ds'.filter (¬ ·.Concerns e) := by
  constructor
  · intro ledger' hbook
    rw [compareWithLedger, compareWithLedger, LedgerSnapshot.expected, LedgerSnapshot.expected,
      hbook]
  · intro e r ledger' ds ds' hledger hexchange h h'
    obtain ⟨findings, hdetect, rfl⟩ := compareWithLedger_eq_ok_iff.1 h
    obtain ⟨findings', hdetect', rfl⟩ := compareWithLedger_eq_ok_iff.1 h'
    have hagree : ∀ source, (s.sides (ledger.expected s.exchange) source).AgreesBut e
        ((s.withRecords r).sides (ledger'.expected s.exchange) source) := by
      intro source
      cases source with
      | ledger => exact hledger
      | exchange => exact hexchange
    rw [filter_concerns_discrepancies, filter_concerns_discrepancies,
      Detection.filter_detect_eq hagree hdetect hdetect']
    rfl

/-- An exchange that reports a coin and an order, and one that reports the order three times, first
with a negative quantity: the coin is found alike.  A book of another exchange changes nothing. -/
theorem compareWithLedger_local_repeated_order :
    let o : Order :=
      ⟨"1", .of .exchange "paper", .of .symbol "BTCUSDT", .buy, .one, none, .zero, none, .accepted,
        none, default⟩
    let s : ExchangeSnapshot :=
      { new o.exchange default with
        balances := .insert .empty (.of .asset "BTC") (.ofFree .one), openOrders := [o] }
    let r : ExpectedState := ⟨s.balances, [{ o with quantity := -.one }, o, o], []⟩
    let ledger : LedgerSnapshot := ⟨default, 1, default, .empty⟩
    let ledger' : LedgerSnapshot :=
      ⟨default, 1, default, .insert .empty (.of .exchange "other") ⟨.empty, [o], []⟩⟩
    let coin : Finding := .unexpectedAsset (.of .asset "BTC") .one
    let findings : List Finding := [coin, .orderUntracked o]
    let findings' : List Finding := [coin, .dataIntegrity .exchange "1" (.negativeOrder (-.one)),
      .dataIntegrity .exchange "1" .repeatedOrder, .dataIntegrity .exchange "1" .repeatedOrder]
    let others (ds : List Discrepancy) := ds.filter (¬ ·.Concerns (.order "1"))
    s.compareWithLedger .standard ledger = .ok (s.discrepancies findings) ∧
      s.compareWithLedger .standard ledger' = .ok (s.discrepancies findings) ∧
      (s.withRecords r).compareWithLedger .standard ledger = .ok (s.discrepancies findings') ∧
      others (s.discrepancies findings) = others (s.discrepancies findings') ∧
      others (s.discrepancies findings) = s.discrepancies [coin] := by
  intro o s r ledger ledger' coin findings findings' others
  obtain ⟨hbooks, hrecords⟩ := compareWithLedger_local .standard s ledger
  have hdetect : Detection.detect .standard s (ledger.expected s.exchange) = .ok findings := by
    decide +kernel
  have hdetect' : Detection.detect .standard (s.withRecords r) (ledger.expected s.exchange) =
      .ok findings' := by decide +kernel
  have h : s.compareWithLedger .standard ledger = .ok (s.discrepancies findings) :=
    compareWithLedger_eq_ok_iff.2 ⟨findings, hdetect, rfl⟩
  have h' : (s.withRecords r).compareWithLedger .standard ledger =
      .ok (s.discrepancies findings') := compareWithLedger_eq_ok_iff.2 ⟨findings', hdetect', rfl⟩
  have hreported : s.reported.AgreesBut (.order "1") r := ⟨fun _ _ => rfl, by decide +kernel, rfl⟩
  refine ⟨h, (hbooks ledger' (by decide +kernel)).trans h, h', ?_, ?_⟩
  · exact hrecords (.order "1") r ledger _ _ ⟨fun _ _ => rfl, rfl, rfl⟩ hreported h h'
  · exact filter_concerns_discrepancies.trans (congrArg s.discrepancies (by decide +kernel))

end ExchangeSnapshot

end Reconciliation
