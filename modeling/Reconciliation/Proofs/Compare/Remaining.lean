/-
# What is left of an order

The ledger and the comparison refuse an order for the same two reasons: its quantity is negative,
or more than that is filled.  Neither looks at whether what is filled is negative.  So what is left
of an order that they accept is never negative, and no more than the whole of it unless something
negative is filled; and then it is more, but for what rounding takes away.

* `Order.Credible.rounds_remainingQuantity`: what is left is the exact rest, rounded;
* `Order.RemainsWithin`: what is left is within bounds;
* `accepted_orders_remain_within`: it is, for orders in the ledger and orders that no finding
  reports;
* `accepted_order_remains_beyond`: an order of one of which two are left.
-/
import Reconciliation.Proofs.Compare.Mirror
import Reconciliation.Proofs.Compare.Subject
import Reconciliation.Proofs.Numeric.Rounding

namespace Reconciliation

/-! ## 1. One order -/

/-- What is left of the order is not negative, and at most its quantity if and, but for rounding,
only if nothing negative is filled. -/
structure Order.RemainsWithin (o : Order) : Prop where
  returns : .zero ≤ o.filledQuantity → ∃ r, o.remainingQuantity = .ok r
  nonneg : ∀ r, o.remainingQuantity = .ok r → .zero ≤ r
  le_quantity_iff : ∀ r, o.remainingQuantity = .ok r →
    (r ≤ o.quantity ↔ .zero ≤ o.filledQuantity ∨ r.Same o.quantity)

theorem Order.remainingQuantity_eq_ok_iff {o : Order} {r : Decimal} :
    o.remainingQuantity = .ok r ↔
      ∃ rest, o.quantity.sub o.filledQuantity = .ok rest ∧ rest.max .zero = r := by
  simp only [remainingQuantity, bind_eq_ok_iff, pure_eq_ok_iff]

namespace Order.Credible

variable {o : Order} {r : Decimal}

/-- Of an order that is not overfilled the exact rest is left, rounded. -/
theorem rounds_remainingQuantity (h : o.Credible) (hr : o.remainingQuantity = .ok r) :
    Decimal.Rounds (o.quantity.value - o.filledQuantity.value) r := by
  obtain ⟨rest, hrest, rfl⟩ := remainingQuantity_eq_ok_iff.1 hr
  have hmax := (Decimal.rounds_sub hrest).max (Decimal.rounds_value .zero)
  have hfilled := Decimal.le_iff_value_le.1 h.filled_le
  rwa [Decimal.value_zero, max_eq_left (by linarith)] at hmax

theorem remainsWithin (h : o.Credible) : o.RemainsWithin where
  returns hfilled := by
    obtain ⟨rest, hrest⟩ :=
      Decimal.exists_sub_iff.2 (Decimal.fits_sub_of_nonneg h.quantity_nonneg hfilled)
    exact ⟨_, remainingQuantity_eq_ok_iff.2 ⟨rest, hrest, rfl⟩⟩
  nonneg r hr := by
    have hfilled := Decimal.le_iff_value_le.1 h.filled_le
    rw [Decimal.le_iff_value_le]
    refine (Decimal.rounds_value .zero).value_le (h.rounds_remainingQuantity hr) ?_
    rw [Decimal.value_zero]
    linarith
  le_quantity_iff r hr := by
    have hle := (h.rounds_remainingQuantity hr).value_le_iff (Decimal.rounds_value o.quantity)
    rw [Decimal.le_iff_value_le, hle, sub_le_self_iff, Decimal.value_nonneg_iff,
      Decimal.same_iff_value_eq]

end Order.Credible

/-! ## 2. All orders that are accepted -/

open Detection in
/-- An order on either side is credible, or its problem is reported under its id. -/
theorem ExchangeSnapshot.credible_or_reported {t : Tolerances} {s : ExchangeSnapshot}
    {ledger : LedgerSnapshot} {ds : List Discrepancy} (h : s.compareWithLedger t ledger = .ok ds)
    (hcollected : s.isDegraded .orders = false) {source : Source} {o : Order}
    (ho : o ∈ (s.sides (ledger.expected s.exchange) source).orders) :
    o.Credible ∨ ∃ problem, orderProblem o = some problem ∧
      (Finding.dataIntegrity source o.id problem).discrepancy s.exchange s.capturedAt ∈ ds := by
  cases hproblem : orderProblem o with
  | none => exact .inl (orderProblem_eq_none_iff.1 hproblem)
  | some problem =>
    right
    obtain ⟨findings, hdetect, rfl⟩ := compareWithLedger_eq_ok_iff.1 h
    have hcategory :=
      filter_category_detect hdetect (isUsable_of_isDegraded_eq_false hcollected) .orders
    rw [compareCategory_orders hcollected] at hcategory
    have hnoted : (o.id, problem) ∈
        (orderScan t fun source => (s.sides (ledger.expected s.exchange) source).orders).problems
          source := Index.mem_problems_ofList_of_problem ho hproblem
    have hfinding := (Scan.mem_of_run hcategory).2 (.inl ⟨source, _, hnoted, rfl⟩)
    exact ⟨problem, rfl, mem_discrepancies.2 ⟨_, List.mem_of_mem_filter hfinding, rfl⟩⟩

/-- A ledger can be made to hold any one credible order, and then expects it. -/
theorem exists_reachable_of_credible {o : Order} (h : o.Credible) :
    ∃ b : LedgerBook, b.Reachable ∧
      (AccountBooks.book b.latest.books o.exchange).orders.get? o.id = some o ∧
      (LedgerSnapshot.ofState b.latest default).expected o.exchange = ⟨.empty, [o], []⟩ := by
  have hcheck : o.check = .ok () := Order.check_eq_ok_iff.2 ⟨h.quantity_nonneg, h.filled_le⟩
  have hbooks : AccountBooks.applyAll .empty [.upsertOrder o] =
      .ok (AccountBooks.onBook .empty o.exchange (·.putOrder o)) := by
    rw [AccountBooks.applyAll_cons, AccountBooks.apply_upsertOrder_iff.2 ⟨hcheck, rfl⟩]
    rfl
  have hnumbers : 1 < wordCount := by decide
  obtain ⟨b, hb, hlatest, -⟩ := LedgerBook.exists_reachable_of_applyAll hbooks hnumbers
  refine ⟨b, hb, ?_, ?_⟩
  · rw [hlatest, AccountBooks.book_onBook_self]
    exact SortedMap.get?_insert_self _ _ _
  · rw [LedgerSnapshot.expected_ofState, hlatest, AccountBooks.book_onBook_self]
    rfl

/-- **What is left of an accepted order is within bounds.**  That goes for every order that the
ledger has in any state, and for every order of either side of a comparison, if orders were
collected and none of the order's own problems is reported. -/
theorem accepted_orders_remain_within :
    (∀ b : LedgerBook, b.Reachable → ∀ s ∈ b.history, ∀ e id o,
      (AccountBooks.book s.books e).orders.get? id = some o → o.RemainsWithin) ∧
    ∀ (t : Tolerances) (s : ExchangeSnapshot) (ledger : LedgerSnapshot) (ds : List Discrepancy),
      s.compareWithLedger t ledger = .ok ds → s.isDegraded .orders = false →
        ∀ source, ∀ o ∈ (s.sides (ledger.expected s.exchange) source).orders,
          o.RemainsWithin ∨ ∃ problem, Detection.orderProblem o = some problem ∧
            (Finding.dataIntegrity source o.id problem).discrepancy s.exchange s.capturedAt ∈
              ds := by
  constructor
  · intro b hb s hs e id o ho
    obtain ⟨-, -, hquantity, hfilled⟩ := ((hb.sound s hs).book e).orders id o ho
    exact Order.Credible.remainsWithin ⟨hquantity, hfilled⟩
  · intro t s ledger ds h hcollected source o ho
    exact (s.credible_or_reported h hcollected ho).imp_left Order.Credible.remainsWithin

/-- An order in a ledger and on the exchange, which reports an overfilled one as well. -/
theorem accepted_orders_remain_within_overfilled :
    let o : Order :=
      ⟨"1", .of .exchange "paper", .of .symbol "BTCUSDT", .buy, .one, none, .zero, none, .accepted,
        none, default⟩
    let overfilled : Order := { o with id := "2", quantity := .zero, filledQuantity := .one }
    let s : ExchangeSnapshot :=
      { ExchangeSnapshot.new o.exchange default with openOrders := [o, overfilled] }
    let ds := s.discrepancies [.dataIntegrity .exchange "2" (.overfilledOrder .zero .one)]
    ∃ b : LedgerBook, b.Reachable ∧
      (AccountBooks.book b.latest.books o.exchange).orders.get? "1" = some o ∧
      o.RemainsWithin ∧
      s.compareWithLedger .standard (.ofState b.latest default) = .ok ds ∧
      ∀ o' ∈ [o, overfilled], o'.RemainsWithin ∨
        ∃ problem, Detection.orderProblem o' = some problem ∧
          (Finding.dataIntegrity .exchange o'.id problem).discrepancy o.exchange default ∈ ds := by
  intro o overfilled s ds
  have hcredible : o.Credible := Detection.orderProblem_eq_none_iff.1 (by decide)
  obtain ⟨b, hb, horder, hexpected⟩ := exists_reachable_of_credible hcredible
  have hdetect : Detection.detect .standard s ⟨.empty, [o], []⟩ =
      .ok [.dataIntegrity .exchange "2" (.overfilledOrder .zero .one)] := by
    decide +kernel
  have hcompare : s.compareWithLedger .standard (.ofState b.latest default) = .ok ds :=
    ExchangeSnapshot.compareWithLedger_eq_ok_iff.2 ⟨_, hexpected ▸ hdetect, rfl⟩
  obtain ⟨hledger, hcompared⟩ := accepted_orders_remain_within
  exact ⟨b, hb, horder, hledger b hb _ List.mem_cons_self o.exchange "1" o horder, hcompare,
    hcompared _ s _ ds hcompare rfl .exchange⟩

/-- **An accepted order may have more left than its whole quantity**: of an order of one, of which
minus one is filled, two are left. -/
theorem accepted_order_remains_beyond :
    let two : Decimal := ⟨2, 0, by decide, by decide⟩
    let o : Order :=
      ⟨"1", .of .exchange "paper", .of .symbol "BTCUSDT", .buy, .one, none, -.one, none, .accepted,
        none, default⟩
    let s : ExchangeSnapshot := { ExchangeSnapshot.new o.exchange default with openOrders := [o] }
    ∃ b : LedgerBook, b.Reachable ∧
      (AccountBooks.book b.latest.books o.exchange).orders.get? "1" = some o ∧
      s.compareWithLedger .standard (.ofState b.latest default) = .ok [] ∧
      o.remainingQuantity = .ok two ∧ ¬ two ≤ o.quantity := by
  intro two o s
  have hcredible : o.Credible := Detection.orderProblem_eq_none_iff.1 (by decide)
  obtain ⟨b, hb, horder, hexpected⟩ := exists_reachable_of_credible hcredible
  have hdetect : Detection.detect .standard s ⟨.empty, [o], []⟩ = .ok [] := by decide +kernel
  have hcompare : s.compareWithLedger .standard (.ofState b.latest default) = .ok [] :=
    ExchangeSnapshot.compareWithLedger_eq_ok_iff.2
      ⟨[], hexpected ▸ hdetect, ExchangeSnapshot.discrepancies_eq_nil_iff.2 rfl⟩
  refine ⟨b, hb, horder, hcompare, ?_, ?_⟩
  · decide +kernel
  · decide

end Reconciliation
