/-
# Report order does not show input order

Orders and positions come in lists, and malformed ones are found in the order of these lists.
Where no id and no symbol is there twice, the order is lost on the way: the records are indexed by
their keys, so what is compared is the same from the start, and the rest is only found in another
order.  The final sort then settles it, since in such a comparison no two findings agree in type
and entity.

* `ExpectedState.Shuffled`, `ExpectedState.Distinct`: other orders of the records, and the
  condition under which they do not matter;
* `upToOrder_detect`: the same is found, or nothing for the same reason;
* `eq_of_mem_detect`: type and entity tell all findings apart;
* `ExchangeSnapshot.compareWithLedger_shuffled`: the comparison comes out the same.
-/
import Mathlib.Data.Multiset.AddSub
import Reconciliation.Proofs.Compare.Identity
import Reconciliation.Proofs.Compare.Subject

namespace Reconciliation

namespace ExpectedState

/-- `r.Shuffled r'`: the same records, orders and positions in any order. -/
structure Shuffled (r r' : ExpectedState) : Prop where
  balances : r'.balances = r.balances
  orders : r.orders.Perm r'.orders
  positions : r.positions.Perm r'.positions

/-- No order id is there twice, and no symbol. -/
structure Distinct (r : ExpectedState) : Prop where
  orders : (r.orders.map (·.id)).Nodup
  positions : (r.positions.map (·.symbol)).Nodup

end ExpectedState

namespace Detection

variable {t : Tolerances} {s : ExchangeSnapshot} {x x' r : ExpectedState} {c : Category}
  {f g : Finding} {findings findings' : List Finding}

/-! ## 1. Results up to order -/

/-- What is found, in no order. -/
def upToOrder (y : Checked (List Finding)) : Checked (Multiset Finding) := Multiset.ofList <$> y

theorem eq_or_perm_of_upToOrder_eq {y z : Checked (List Finding)}
    (h : upToOrder y = upToOrder z) :
    (∃ o, y = .error o ∧ z = .error o) ∨ ∃ l l', y = .ok l ∧ z = .ok l' ∧ l.Perm l' := by
  cases y with
  | error o =>
    cases z with
    | error o' => exact .inl ⟨o, rfl, congrArg Except.error (Except.error.inj h).symm⟩
    | ok l' => cases h
  | ok l =>
    cases z with
    | error o' => cases h
    | ok l' => exact .inr ⟨l, l', rfl, rfl, Multiset.coe_eq_coe.1 (Except.ok.inj h)⟩

theorem upToOrder_append (l : List Finding) (y z w : Checked (List Finding)) :
    upToOrder (do return l ++ (← y) ++ (← z) ++ (← w)) =
      (do return (l : Multiset Finding) + (← upToOrder y) + (← upToOrder z) + (← upToOrder w)) := by
  cases y <;> cases z <;> cases w <;> rfl

/-! ## 2. What is found -/

/-- Scans that only note problems in another order find the same. -/
theorem Scan.upToOrder_run_eq {κ : Type} {subject : κ → Subject} {a b : Scan κ}
    (hkeys : a.keys = b.keys) (hcheck : a.check = b.check)
    (hproblems : ∀ source, (a.problems source).Perm (b.problems source)) :
    upToOrder (a.run subject) = upToOrder (b.run subject) := by
  rw [run, run, hkeys, hcheck]
  cases gather b.check b.keys with
  | error o => rfl
  | ok matched =>
    refine congrArg Except.ok (Multiset.coe_eq_coe.2 ?_)
    exact (((hproblems .ledger).map _).append ((hproblems .exchange).map _)).append_right _

section Index

variable {κ α : Type} [Ord κ] [Std.TransOrd κ] [Std.LawfulEqOrd κ] [DecidableEq κ]
  {key : α → κ} {problem : α → Option RecordProblem} {repeated : RecordProblem} {l l' : List α}

omit [Ord κ] [Std.TransOrd κ] [Std.LawfulEqOrd κ] in
/-- Where no key is there twice, there is no order among the records of a key. -/
theorem filter_key_eq_of_perm (hl : (l.map key).Nodup) (h : l.Perm l') (k : κ) :
    l.filter (key · = k) = l'.filter (key · = k) := by
  have hperm : (l.filter (key · = k)).Perm (l'.filter (key · = k)) := h.filter _
  rw [Index.filter_eq_toList_find? hl] at hperm ⊢
  cases hfind : l.find? (key · = k) with
  | none =>
    rw [hfind] at hperm
    exact hperm.nil_eq
  | some a =>
    rw [hfind] at hperm
    exact List.singleton_perm.1 hperm

theorem records_ofList_eq_of_perm (hl : (l.map key).Nodup) (h : l.Perm l') :
    (Index.ofList key problem repeated l).records =
      (Index.ofList key problem repeated l').records :=
  SortedMap.ext_get? fun k => Index.get?_ofList_congr (filter_key_eq_of_perm hl h k)

omit [DecidableEq κ] in
theorem problems_ofList_perm (hl : (l.map key).Nodup) (h : l.Perm l') :
    (Index.ofList key problem repeated l).problems.Perm
      (Index.ofList key problem repeated l').problems := by
  have hl' : (l'.map key).Nodup := (h.map key).nodup_iff.1 hl
  rw [Index.problems_ofList_of_nodup hl, Index.problems_ofList_of_nodup hl']
  exact h.filterMap _

theorem upToOrder_indexScan_eq {subject : κ → Subject}
    {judge : κ → Option (Option α) → Option (Option α) → Checked (Option Finding)}
    {records records' : Source → List α} (hdistinct : ∀ source, ((records source).map key).Nodup)
    (hshuffled : ∀ source, (records source).Perm (records' source)) :
    upToOrder ((indexScan key problem repeated judge records).run subject) =
      upToOrder ((indexScan key problem repeated judge records').run subject) := by
  have hrecords : ∀ source, (Index.ofList key problem repeated (records source)).records =
      (Index.ofList key problem repeated (records' source)).records := fun source =>
    records_ofList_eq_of_perm (hdistinct source) (hshuffled source)
  refine Scan.upToOrder_run_eq ?_ ?_ fun source => ?_
  · simp only [indexScan, hrecords]
  · simp only [indexScan, hrecords]
  · exact problems_ofList_perm (hdistinct source) (hshuffled source)

end Index

theorem upToOrder_compareCategory (hdistinct : ∀ source, (s.sides x source).Distinct)
    (hshuffled : ∀ source, (s.sides x source).Shuffled ((s.withRecords r).sides x' source)) :
    upToOrder (compareCategory t x s c) = upToOrder (compareCategory t x' (s.withRecords r) c) := by
  cases hc : s.isDegraded c with
  | true =>
    have hc' : (s.withRecords r).isDegraded c = true := hc
    rw [compareCategory_of_isDegraded hc, compareCategory_of_isDegraded hc']
  | false =>
    have hc' : (s.withRecords r).isDegraded c = false := hc
    cases c with
    | balances =>
      rw [compareCategory_balances hc, compareCategory_balances hc',
        (hshuffled .ledger).balances, (hshuffled .exchange).balances]
    | orders =>
      rw [compareCategory_orders hc, compareCategory_orders hc']
      exact upToOrder_indexScan_eq (fun source => (hdistinct source).orders)
        fun source => (hshuffled source).orders
    | positions =>
      rw [compareCategory_positions hc, compareCategory_positions hc']
      exact upToOrder_indexScan_eq (fun source => (hdistinct source).positions)
        fun source => (hshuffled source).positions

/-- **The same is found, in another order, or nothing for the same reason.** -/
theorem upToOrder_detect (hdistinct : ∀ source, (s.sides x source).Distinct)
    (hshuffled : ∀ source, (s.sides x source).Shuffled ((s.withRecords r).sides x' source)) :
    upToOrder (detect t s x) = upToOrder (detect t (s.withRecords r) x') := by
  have husable : (s.withRecords r).isUsable = s.isUsable := rfl
  unfold detect
  rw [husable]
  split
  · rw [upToOrder_append, upToOrder_append, upToOrder_compareCategory hdistinct hshuffled,
      upToOrder_compareCategory hdistinct hshuffled, upToOrder_compareCategory hdistinct hshuffled]
    rfl
  · rfl

/-! ## 3. All findings are told apart -/

/-- If no key has two problems on one side, type and entity tell the findings of a scan apart. -/
theorem Scan.About.eq_of_mem {κ : Type} {subject : κ → Subject} {a : Scan κ}
    (h : a.About subject c) (hproblems : ∀ source, ((a.problems source).map (·.1)).Nodup)
    (hrun : a.run subject = .ok findings) (hf : f ∈ findings) (hg : g ∈ findings)
    (htype : f.type = g.type) (hentity : f.entity = g.entity) : f = g := by
  have hkey : ∀ {k k'}, (subject k).text = (subject k').text → k = k' := fun htext =>
    h.injective (Subject.ext_text ((h.category _).trans (h.category _).symm) htext)
  rcases (mem_of_run hrun).1 hf with ⟨source, p, hp, rfl⟩ | ⟨k, -, hk⟩ <;>
    rcases (mem_of_run hrun).1 hg with ⟨source', p', hp', rfl⟩ | ⟨k', -, hk'⟩
  · obtain ⟨rfl, -, htext⟩ := integrityEntity_inj hentity
    rw [List.inj_on_of_nodup_map (hproblems source) hp hp' (hkey htext)]
  · have hcompared := (h.check k' g hk').1
    rw [← htype] at hcompared
    cases hcompared
  · have hcompared := (h.check k f hk).1
    rw [htype] at hcompared
    cases hcompared
  · obtain ⟨-, hfk⟩ := h.check k f hk
    obtain ⟨-, hgk⟩ := h.check k' g hk'
    obtain rfl : k = k' := hkey (hfk.symm.trans (hentity.trans hgk))
    rw [hk, Except.ok.injEq, Option.some.injEq] at hk'
    exact hk'

theorem nodup_problems_ofList {κ α : Type} [Ord κ] [Std.TransOrd κ] [Std.LawfulEqOrd κ]
    {key : α → κ} {problem : α → Option RecordProblem} {repeated : RecordProblem} {l : List α}
    (h : (l.map key).Nodup) : ((Index.ofList key problem repeated l).problems.map (·.1)).Nodup := by
  have hsublist : ∀ l : List α,
      ((l.filterMap fun a => (problem a).map (key a, ·)).map (·.1)).Sublist (l.map key) := by
    intro l
    induction l with
    | nil => exact .slnil
    | cons a rest ih =>
      cases hproblem : problem a with
      | none =>
        rw [List.filterMap_cons_none (by simp [hproblem])]
        exact ih.cons _
      | some p =>
        rw [List.filterMap_cons_some (b := (key a, p)) (by simp [hproblem])]
        exact ih.cons_cons _
  rw [Index.problems_ofList_of_nodup h]
  exact (hsublist l).nodup h

theorem eq_of_mem_compareCategory (hdistinct : ∀ source, (s.sides x source).Distinct)
    (h : compareCategory t x s c = .ok findings) (hf : f ∈ findings) (hg : g ∈ findings)
    (htype : f.type = g.type) (hentity : f.entity = g.entity) : f = g := by
  cases hc : s.isDegraded c with
  | true =>
    rw [compareCategory_of_isDegraded hc, Except.ok.injEq] at h
    rw [← h, List.mem_singleton] at hf hg
    rw [hf, hg]
  | false =>
    cases c with
    | balances =>
      obtain ⟨problems, hproblems, hrun⟩ := (compareCategory_balances_eq_ok_iff hc).1 h
      exact (about_balanceScan hproblems).eq_of_mem
        (fun source => nodup_balanceProblems (hproblems source)) hrun hf hg htype hentity
    | orders =>
      rw [compareCategory_orders hc] at h
      exact (about_orderScan _).eq_of_mem
        (fun source => nodup_problems_ofList (hdistinct source).orders) h hf hg htype hentity
    | positions =>
      rw [compareCategory_positions hc] at h
      exact (about_positionScan _).eq_of_mem
        (fun source => nodup_problems_ofList (hdistinct source).positions) h hf hg htype hentity

/-- **Type and entity tell all findings of a comparison apart**, where no id and no symbol is there
twice. -/
theorem eq_of_mem_detect (hdistinct : ∀ source, (s.sides x source).Distinct)
    (h : detect t s x = .ok findings) (hf : f ∈ findings) (hg : g ∈ findings)
    (htype : f.type = g.type) (hentity : f.entity = g.entity) : f = g := by
  cases hc : f.category with
  | none =>
    have hmem : ∀ {f}, f ∈ findings → f.type = .connectivity → f ∈ (connectivity s).toList := by
      intro f hf hlost
      rw [← filter_connectivity_detect h]
      exact List.mem_filter.2 ⟨hf, decide_eq_true hlost⟩
    have hlost := Finding.category_eq_none_iff.1 hc
    exact eq_of_mem_connectivity (hmem hf hlost) (hmem hg (htype ▸ hlost))
  | some c =>
    have hc' : g.category = some c := category_eq_of_entity_eq htype hentity ▸ hc
    exact eq_of_mem_compareCategory hdistinct
      (filter_category_detect h (isUsable_of_category h hf hc) c)
      (List.mem_filter.2 ⟨hf, decide_eq_true hc⟩) (List.mem_filter.2 ⟨hg, decide_eq_true hc'⟩)
      htype hentity

end Detection

/-! ## 4. The report -/

theorem Discrepancy.type_entity_eq_of_compareKeys {a b : Discrepancy}
    (h : compareKeys a b = .eq) : a.type = b.type ∧ a.entity = b.entity := by
  simp only [compareKeys, Ordering.then_eq_eq] at h
  exact ⟨rank_inj (Std.LawfulEqOrd.eq_of_compare h.2.1), Std.LawfulEqOrd.eq_of_compare h.2.2.1⟩

namespace ExchangeSnapshot

variable {s : ExchangeSnapshot} {findings findings' : List Finding}

/-- Findings that type and entity tell apart are reported the same, whatever order they are found
in. -/
theorem discrepancies_eq_of_perm (hperm : findings.Perm findings')
    (hapart : ∀ f ∈ findings, ∀ g ∈ findings, f.type = g.type → f.entity = g.entity → f = g) :
    s.discrepancies findings = s.discrepancies findings' := by
  refine mergeSort_eq_of_perm (hperm.map _) fun a ha b hb hab => ?_
  obtain ⟨f, hf, rfl⟩ := List.mem_map.1 ha
  obtain ⟨g, hg, rfl⟩ := List.mem_map.1 hb
  obtain ⟨htype, hentity⟩ := Discrepancy.type_entity_eq_of_compareKeys hab
  rw [Finding.type_discrepancy, Finding.type_discrepancy] at htype
  rw [Finding.entity_discrepancy, Finding.entity_discrepancy] at hentity
  rw [hapart f hf g hg htype hentity]

/-- **Report order does not show input order.**  If neither side has an order id or a symbol twice,
the orders and the positions of either side may come in any order: the comparison gives the same
discrepancies in the same order, or overflows in the same operation. -/
theorem compareWithLedger_shuffled (t : Tolerances) {s : ExchangeSnapshot} {r : ExpectedState}
    {ledger ledger' : LedgerSnapshot} (hledger : (ledger.expected s.exchange).Distinct)
    (hexchange : s.reported.Distinct)
    (hledger' : (ledger.expected s.exchange).Shuffled (ledger'.expected s.exchange))
    (hexchange' : s.reported.Shuffled r) :
    (s.withRecords r).compareWithLedger t ledger' = s.compareWithLedger t ledger := by
  have hdistinct : ∀ source, (s.sides (ledger.expected s.exchange) source).Distinct := by
    intro source
    cases source with
    | ledger => exact hledger
    | exchange => exact hexchange
  have hshuffled : ∀ source, (s.sides (ledger.expected s.exchange) source).Shuffled
      ((s.withRecords r).sides (ledger'.expected s.exchange) source) := by
    intro source
    cases source with
    | ledger => exact hledger'
    | exchange => exact hexchange'
  have hexchanges : (s.withRecords r).exchange = s.exchange := rfl
  rw [compareWithLedger, compareWithLedger, hexchanges]
  rcases Detection.eq_or_perm_of_upToOrder_eq
    (Detection.upToOrder_detect (t := t) hdistinct hshuffled) with
    ⟨o, h, h'⟩ | ⟨l, l', h, h', hperm⟩
  · rw [h, h']
    rfl
  · rw [h, h']
    refine congrArg Except.ok (discrepancies_eq_of_perm hperm ?_).symm
    exact fun f hf g hg => Detection.eq_of_mem_detect hdistinct h hf hg

/-- Two malformed orders, which the exchange reports in either order, and two positions of the
ledger: the orders are found in the order in which they come, and reported by id. -/
theorem compareWithLedger_shuffled_malformed_orders :
    let e : ExchangeId := .of .exchange "paper"
    let o (id : OrderId) : Order :=
      ⟨id, e, .of .symbol "BTCUSDT", .buy, -.one, none, .zero, none, .accepted, none, default⟩
    let p (symbol : Symbol) : Position := ⟨e, symbol, none, .zero, none, none, default⟩
    let s : ExchangeSnapshot := { new e default with openOrders := [o "1", o "2"] }
    let r : ExpectedState := ⟨.empty, [o "2", o "1"], []⟩
    let a := p (.of .symbol "BTCUSDT")
    let b := p (.of .symbol "ETHUSDT")
    let ledger : LedgerSnapshot := ⟨default, 1, default, .insert .empty e ⟨.empty, [], [a, b]⟩⟩
    let ledger' : LedgerSnapshot := ⟨default, 1, default, .insert .empty e ⟨.empty, [], [b, a]⟩⟩
    let malformed (id : OrderId) : Finding := .dataIntegrity .exchange id (.negativeOrder (-.one))
    Detection.detect .standard (s.withRecords r) (ledger'.expected s.exchange) =
        .ok [malformed "2", malformed "1"] ∧
      s.compareWithLedger .standard ledger =
        .ok (s.discrepancies [malformed "1", malformed "2"]) ∧
      (s.withRecords r).compareWithLedger .standard ledger' =
        s.compareWithLedger .standard ledger := by
  intro e o p s r a b ledger ledger' malformed
  have hdetect : Detection.detect .standard s (ledger.expected s.exchange) =
      .ok [malformed "1", malformed "2"] := by decide +kernel
  have hbook : ledger.expected s.exchange = ⟨.empty, [], [a, b]⟩ := by decide +kernel
  have hbook' : ledger'.expected s.exchange = ⟨.empty, [], [b, a]⟩ := by decide +kernel
  refine ⟨by decide +kernel, compareWithLedger_eq_ok_iff.2 ⟨_, hdetect, rfl⟩, ?_⟩
  refine compareWithLedger_shuffled .standard ?_ ?_ ?_ ?_
  · rw [hbook]
    exact ⟨List.nodup_nil, by decide +kernel⟩
  · exact ⟨by decide +kernel, List.nodup_nil⟩
  · rw [hbook, hbook']
    exact ⟨rfl, .nil, .swap ..⟩
  · exact ⟨rfl, .swap .., .nil⟩

end ExchangeSnapshot

end Reconciliation
