/-
# When a comparison finds nothing

An empty report is a clean bill of health: everything was collected, every record is sound by
itself, and the two sides agree on every entity.  The agreement is stated here in terms of the
records alone, with no word about how they are indexed, matched or left out; a comparison is
silent exactly where it holds.

* `BalancesAgree`, `OrdersAgree`, `PositionsAgree`, `Agreement`: the agreement of two sides;
* `compareBalances_eq_nil_iff` and its siblings: a category is silent exactly on agreement;
* `compareWithLedger_eq_nil_iff`: the whole comparison is.
-/
import Reconciliation.Proofs.Compare.Matching
import Reconciliation.Proofs.Numeric.Decimal

namespace Reconciliation

/-! ## 1. Agreement -/

/-- A balance that can be believed: nothing in it is negative, and the parts make up the total
within tolerance. -/
structure Balance.Credible (t : Tolerances) (b : Balance) : Prop where
  total_nonneg : .zero ≤ b.total
  free_nonneg : .zero ≤ b.free
  locked_nonneg : .zero ≤ b.locked
  adds_up : ∃ parts, b.free.add b.locked = .ok parts ∧ t.within b.total parts = .ok true

/-- An order that can be believed: its quantity is not negative and not exceeded. -/
structure Order.Credible (o : Order) : Prop where
  quantity_nonneg : .zero ≤ o.quantity
  filled_le : o.filledQuantity ≤ o.quantity

/-- A position that can be believed: its quantity is not negative, and has a side if there is
any. -/
structure Position.Credible (p : Position) : Prop where
  quantity_nonneg : .zero ≤ p.quantity
  sided : p.quantity.isZero = false → p.side.isSome = true

namespace Detection

structure BalancesAgree (t : Tolerances) (expected actual : SortedMap AssetId Balance) : Prop where
  credible_expected : ∀ a b, expected.get? a = some b → b.Credible t
  credible_actual : ∀ a b, actual.get? a = some b → b.Credible t
  /-- What both sides hold, they hold the same of. -/
  both : ∀ a e x, expected.get? a = some e → actual.get? a = some x →
    t.within e.total x.total = .ok true
  /-- What one side alone lists, it holds nothing of. -/
  ledger_only : ∀ a e, expected.get? a = some e → actual.get? a = none → e.total.isZero = true
  exchange_only : ∀ a x, expected.get? a = none → actual.get? a = some x → x.total.isZero = true

structure OrdersAgree (expected actual : List Order) : Prop where
  credible_expected : ∀ o ∈ expected, o.Credible
  credible_actual : ∀ o ∈ actual, o.Credible
  distinct_expected : (expected.map (·.id)).Nodup
  distinct_actual : (actual.map (·.id)).Nodup
  /-- The ledger knows every order of the exchange, in the same status. -/
  known : ∀ o ∈ actual, ∃ e ∈ expected, e.id = o.id ∧ e.status = o.status
  /-- The exchange has every order that is open in the ledger. -/
  present : ∀ e ∈ expected, e.status.isOpen = true → ∃ o ∈ actual, o.id = e.id

/-- The price at which two positions in one symbol are valued. -/
def sharedPrice (expected actual : Option Position) : Decimal :=
  ((actual.bind (·.referencePrice)).or (expected.bind (·.referencePrice))).getD .one

/-- Two positions, either of which may be missing, are worth the same. -/
def ExposuresAgree (t : Tolerances) (expected actual : Option Position) : Prop :=
  ∃ e x, (exposure expected).mul (sharedPrice expected actual) = .ok e ∧
    (exposure actual).mul (sharedPrice expected actual) = .ok x ∧ t.within e x = .ok true

/-- The position in a symbol. -/
def positionIn (l : List Position) (s : Symbol) : Option Position := l.find? (·.symbol = s)

structure PositionsAgree (t : Tolerances) (expected actual : List Position) : Prop where
  credible_expected : ∀ p ∈ expected, p.Credible
  credible_actual : ∀ p ∈ actual, p.Credible
  distinct_expected : (expected.map (·.symbol)).Nodup
  distinct_actual : (actual.map (·.symbol)).Nodup
  exposures : ∀ s, (∃ p ∈ expected, p.symbol = s) ∨ (∃ p ∈ actual, p.symbol = s) →
    ExposuresAgree t (positionIn expected s) (positionIn actual s)

/-- `Agreement t s x`: the snapshot is whole and agrees with what is expected of its exchange. -/
structure Agreement (t : Tolerances) (s : ExchangeSnapshot) (x : ExpectedState) : Prop where
  no_error : s.collectionError = none
  not_degraded : ∀ c, s.isDegraded c = false
  balances : BalancesAgree t x.balances s.balances
  orders : OrdersAgree x.orders s.openOrders
  positions : PositionsAgree t x.positions s.positions

/-! ## 2. Records by themselves -/

theorem balanceProblem_eq_none_iff {t : Tolerances} {b : Balance} :
    balanceProblem t b = .ok none ↔ b.Credible t := by
  unfold balanceProblem
  cases hsign : b.total.isNegative || b.free.isNegative || b.locked.isNegative with
  | true =>
    simp only [if_true, pure_eq_ok_iff, reduceCtorEq, false_iff]
    rintro ⟨htotal, hfree, hlocked, -⟩
    simp [Decimal.isNegative_eq_false_iff.2 htotal, Decimal.isNegative_eq_false_iff.2 hfree,
      Decimal.isNegative_eq_false_iff.2 hlocked] at hsign
  | false =>
    obtain ⟨⟨htotal, hfree⟩, hlocked⟩ : (b.total.isNegative = false ∧ b.free.isNegative = false) ∧
        b.locked.isNegative = false := by simpa using hsign
    simp only [Bool.false_eq_true, if_false, bind_eq_ok_iff, pure_eq_ok_iff]
    constructor
    · rintro ⟨parts, hparts, w, hw, hnone⟩
      cases w with
      | false => cases hnone
      | true =>
        exact ⟨Decimal.isNegative_eq_false_iff.1 htotal, Decimal.isNegative_eq_false_iff.1 hfree,
          Decimal.isNegative_eq_false_iff.1 hlocked, parts, hparts, hw⟩
    · rintro ⟨-, -, -, parts, hparts, hw⟩
      exact ⟨parts, hparts, true, hw, rfl⟩

theorem orderProblem_eq_none_iff {o : Order} : orderProblem o = none ↔ o.Credible := by
  unfold orderProblem
  constructor
  · intro h
    split at h
    · cases h
    rename_i hquantity
    split at h
    · cases h
    rename_i hfilled
    exact {
      quantity_nonneg := Decimal.isNegative_eq_false_iff.1 (by simpa using hquantity)
      filled_le := Decimal.le_iff_not_lt.2 hfilled }
  · rintro ⟨hquantity, hfilled⟩
    rw [Decimal.isNegative_eq_false_iff.2 hquantity, if_neg (by simp),
      if_neg (Decimal.le_iff_not_lt.1 hfilled)]

theorem positionProblem_eq_none_iff {p : Position} : positionProblem p = none ↔ p.Credible := by
  unfold positionProblem
  constructor
  · intro h
    split at h
    · cases h
    rename_i hquantity
    split at h
    · cases h
    rename_i hside
    refine ⟨Decimal.isNegative_eq_false_iff.1 (by simpa using hquantity), fun hzero => ?_⟩
    simpa [hzero, Option.isSome_iff_ne_none] using hside
  · rintro ⟨hquantity, hside⟩
    rw [Decimal.isNegative_eq_false_iff.2 hquantity, if_neg (by simp), if_neg]
    intro h
    obtain ⟨hnone, hzero⟩ : p.side.isNone = true ∧ p.quantity.isZero = false := by simpa using h
    simp [Option.isNone_iff_eq_none.1 hnone] at hside
    simp [hside] at hzero

/-! ## 3. Category by category -/

theorem balanceProblems_eq_nil_iff {t : Tolerances} {balances : SortedMap AssetId Balance} :
    balanceProblems t balances = .ok [] ↔ ∀ a b, balances.get? a = some b → b.Credible t := by
  rw [balanceProblems, gather_eq_nil_iff]
  simp only [Prod.forall, SortedMap.mem_entries_iff, bind_eq_ok_iff, pure_eq_ok_iff,
    Option.map_eq_none_iff, exists_eq_right, balanceProblem_eq_none_iff]

theorem compareBalance_eq_none_iff {t : Tolerances} {a : AssetId} {e x : Option Balance} :
    compareBalance t a e x = .ok none ↔
      (∀ e' x', e = some e' → x = some x' → t.within e'.total x'.total = .ok true) ∧
      (∀ e', e = some e' → x = none → e'.total.isZero = true) ∧
      (∀ x', e = none → x = some x' → x'.total.isZero = true) := by
  cases e with
  | none =>
    cases x with
    | none => simp [compareBalance]
    | some x => simp [compareBalance]
  | some e =>
    cases x with
    | none => simp [compareBalance]
    | some x =>
      simp only [compareBalance, bind_eq_ok_iff]
      constructor
      · rintro ⟨w, hw, h⟩
        cases w with
        | true => simp [hw]
        | false => simp at h
      · rintro ⟨hwithin, -, -⟩
        exact ⟨true, hwithin e x rfl rfl, rfl⟩

/-- **Balances give no finding exactly if they agree.** -/
theorem compareBalances_eq_nil_iff {t : Tolerances} {expected actual : SortedMap AssetId Balance} :
    compareBalances t expected actual = .ok [] ↔ BalancesAgree t expected actual := by
  simp only [compareBalances, bind_eq_ok_iff, pure_eq_ok_iff, List.append_eq_nil_iff,
    List.map_eq_nil_iff]
  constructor
  · rintro ⟨ledger, hledger, exchange, hexchange, matched, hmatched, ⟨rfl, rfl⟩, rfl⟩
    have hone : ∀ a, compareBalance t a (expected.get? a) (actual.get? a) = .ok none := by
      simp only [List.append_nil, List.map_nil, List.not_mem_nil, if_false] at hmatched
      refine (gather_unionKeys_eq_nil_iff fun a he hx => ?_).1 hmatched
      rw [he, hx, compareBalance]
      rfl
    exact ⟨balanceProblems_eq_nil_iff.1 hledger, balanceProblems_eq_nil_iff.1 hexchange,
      fun a e x => (compareBalance_eq_none_iff.1 (hone a)).1 e x,
      fun a e => (compareBalance_eq_none_iff.1 (hone a)).2.1 e,
      fun a x => (compareBalance_eq_none_iff.1 (hone a)).2.2 x⟩
  · rintro ⟨hexpected, hactual, hboth, hledger, hexchange⟩
    refine ⟨[], balanceProblems_eq_nil_iff.2 hexpected, [], balanceProblems_eq_nil_iff.2 hactual,
      [], ?_, ⟨rfl, rfl⟩, rfl⟩
    rw [gather_eq_nil_iff]
    intro a _
    exact compareBalance_eq_none_iff.2 ⟨hboth a, hledger a, hexchange a⟩

theorem problems_indexOrders_eq_nil_iff {l : List Order} :
    (indexOrders l).problems = [] ↔ (∀ o ∈ l, o.Credible) ∧ (l.map (·.id)).Nodup := by
  simp only [indexOrders, Index.problems_ofList_eq_nil_iff, orderProblem_eq_none_iff]

theorem compareOrder_eq_none_iff {t : Tolerances} {e x : Option Order} :
    compareOrder t (e.map some) (x.map some) = .ok none ↔
      (∀ o, x = some o → ∃ e', e = some e' ∧ e'.status = o.status) ∧
      (∀ e', e = some e' → e'.status.isOpen = true → x ≠ none) := by
  cases e with
  | none =>
    cases x with
    | none => simp [compareOrder]
    | some x => simp [compareOrder]
  | some e =>
    cases x with
    | none => simp [compareOrder]
    | some x =>
      by_cases h : e.status = x.status
      · simp [compareOrder, h]
      · simp [compareOrder, h]

/-- **Orders give no finding exactly if they agree.** -/
theorem compareOrders_eq_nil_iff {t : Tolerances} {expected actual : List Order} :
    compareOrders t expected actual = .ok [] ↔ OrdersAgree expected actual := by
  simp only [compareOrders, bind_eq_ok_iff, pure_eq_ok_iff, List.append_eq_nil_iff,
    List.map_eq_nil_iff]
  have hmatch : (indexOrders expected).problems = [] → (indexOrders actual).problems = [] →
      (gather (fun id => compareOrder t ((indexOrders expected).records.get? id)
          ((indexOrders actual).records.get? id))
        (unionKeys (indexOrders expected).records (indexOrders actual).records) = .ok [] ↔
      ∀ id, (∀ o, actual.find? (·.id = id) = some o →
          ∃ e, expected.find? (·.id = id) = some e ∧ e.status = o.status) ∧
        (∀ e, expected.find? (·.id = id) = some e → e.status.isOpen = true →
          actual.find? (·.id = id) ≠ none)) := by
    intro he hx
    rw [gather_unionKeys_eq_nil_iff fun id he hx => by rw [he, hx, compareOrder]; rfl]
    refine forall_congr' fun id => ?_
    rw [indexOrders, Index.get?_ofList_of_problems_eq_nil he, indexOrders,
      Index.get?_ofList_of_problems_eq_nil hx, compareOrder_eq_none_iff]
  constructor
  · rintro ⟨matched, hmatched, ⟨he, hx⟩, rfl⟩
    obtain ⟨hce, hde⟩ := problems_indexOrders_eq_nil_iff.1 he
    obtain ⟨hcx, hdx⟩ := problems_indexOrders_eq_nil_iff.1 hx
    rw [hmatch he hx] at hmatched
    refine ⟨hce, hcx, hde, hdx, fun o ho => ?_, fun e he hopen => ?_⟩
    · obtain ⟨e, hfind, hstatus⟩ :=
        (hmatched o.id).1 o ((Index.find?_eq_some_iff_mem hdx).2 ⟨ho, rfl⟩)
      obtain ⟨hmem, hid⟩ := (Index.find?_eq_some_iff_mem hde).1 hfind
      exact ⟨e, hmem, hid, hstatus⟩
    · obtain ⟨o, hfind⟩ := Option.ne_none_iff_exists'.1
        ((hmatched e.id).2 e ((Index.find?_eq_some_iff_mem hde).2 ⟨he, rfl⟩) hopen)
      exact ⟨o, (Index.find?_eq_some_iff_mem hdx).1 hfind⟩
  · rintro ⟨hce, hcx, hde, hdx, hknown, hpresent⟩
    have he := problems_indexOrders_eq_nil_iff.2 ⟨hce, hde⟩
    have hx := problems_indexOrders_eq_nil_iff.2 ⟨hcx, hdx⟩
    refine ⟨[], (hmatch he hx).2 fun id => ⟨fun o ho => ?_, fun e he hopen => ?_⟩, ⟨he, hx⟩, rfl⟩
    · obtain ⟨hmem, rfl⟩ := (Index.find?_eq_some_iff_mem hdx).1 ho
      obtain ⟨e, hmem', hid, hstatus⟩ := hknown o hmem
      exact ⟨e, (Index.find?_eq_some_iff_mem hde).2 ⟨hmem', hid⟩, hstatus⟩
    · obtain ⟨hmem, rfl⟩ := (Index.find?_eq_some_iff_mem hde).1 he
      obtain ⟨o, hmem', hid⟩ := hpresent e hmem hopen
      rw [(Index.find?_eq_some_iff_mem hdx).2 ⟨hmem', hid⟩]
      exact Option.some_ne_none o

theorem problems_indexPositions_eq_nil_iff {l : List Position} :
    (indexPositions l).problems = [] ↔
      (∀ p ∈ l, p.Credible) ∧ (l.map (·.symbol)).Nodup := by
  simp only [indexPositions, Index.problems_ofList_eq_nil_iff, positionProblem_eq_none_iff]

theorem comparePosition_eq_none_iff {t : Tolerances} {s : Symbol} {e x : Option Position} :
    comparePosition t s (e.map some) (x.map some) = .ok none ↔ ExposuresAgree t e x := by
  have hjoin : comparePosition t s (e.map some) (x.map some) = compareExposure t s e x := by
    cases e <;> cases x <;> rfl
  simp only [hjoin, compareExposure, bind_eq_ok_iff]
  constructor
  · rintro ⟨ne, hne, nx, hnx, w, hw, h⟩
    cases w with
    | true => exact ⟨ne, nx, hne, hnx, hw⟩
    | false => simp at h
  · rintro ⟨ne, nx, hne, hnx, hw⟩
    exact ⟨ne, hne, nx, hnx, true, hw, rfl⟩

/-- **Positions give no finding exactly if they agree.** -/
theorem comparePositions_eq_nil_iff {t : Tolerances} {expected actual : List Position} :
    comparePositions t expected actual = .ok [] ↔ PositionsAgree t expected actual := by
  simp only [comparePositions, bind_eq_ok_iff, pure_eq_ok_iff, List.append_eq_nil_iff,
    List.map_eq_nil_iff]
  have hmatch : (indexPositions expected).problems = [] → (indexPositions actual).problems = [] →
      (gather (fun s => comparePosition t s ((indexPositions expected).records.get? s)
          ((indexPositions actual).records.get? s))
        (unionKeys (indexPositions expected).records (indexPositions actual).records) = .ok [] ↔
      ∀ s, (∃ p ∈ expected, p.symbol = s) ∨ (∃ p ∈ actual, p.symbol = s) →
        ExposuresAgree t (positionIn expected s) (positionIn actual s)) := by
    intro he hx
    rw [gather_eq_nil_iff]
    refine forall_congr' fun s => imp_congr ?_ ?_
    · rw [mem_unionKeys]
      simp [indexPositions, Index.get?_ofList_eq_none_iff]
    · rw [indexPositions, Index.get?_ofList_of_problems_eq_nil he, indexPositions,
        Index.get?_ofList_of_problems_eq_nil hx, comparePosition_eq_none_iff]
      rfl
  constructor
  · rintro ⟨matched, hmatched, ⟨he, hx⟩, rfl⟩
    obtain ⟨hce, hde⟩ := problems_indexPositions_eq_nil_iff.1 he
    obtain ⟨hcx, hdx⟩ := problems_indexPositions_eq_nil_iff.1 hx
    exact ⟨hce, hcx, hde, hdx, (hmatch he hx).1 hmatched⟩
  · rintro ⟨hce, hcx, hde, hdx, hexposures⟩
    have he := problems_indexPositions_eq_nil_iff.2 ⟨hce, hde⟩
    have hx := problems_indexPositions_eq_nil_iff.2 ⟨hcx, hdx⟩
    exact ⟨[], (hmatch he hx).2 hexposures, ⟨he, hx⟩, rfl⟩

/-! ## 4. The whole comparison -/

theorem compareCategory_eq_nil_iff {t : Tolerances} {x : ExpectedState} {s : ExchangeSnapshot} :
    (∀ c, compareCategory t x s c = .ok []) ↔
      (∀ c, s.isDegraded c = false) ∧ BalancesAgree t x.balances s.balances ∧
        OrdersAgree x.orders s.openOrders ∧ PositionsAgree t x.positions s.positions := by
  have hskipped : ∀ c, compareCategory t x s c = .ok [] → s.isDegraded c = false := by
    intro c h
    cases hc : s.isDegraded c with
    | false => rfl
    | true => simp [compareCategory, hc] at h
  constructor
  · intro h
    have hall := fun c => hskipped c (h c)
    refine ⟨hall, ?_, ?_, ?_⟩
    · simpa [compareCategory, hall, compareBalances_eq_nil_iff] using h .balances
    · simpa [compareCategory, hall, compareOrders_eq_nil_iff] using h .orders
    · simpa [compareCategory, hall, comparePositions_eq_nil_iff] using h .positions
  · rintro ⟨hall, hbalances, horders, hpositions⟩ c
    cases c with
    | balances => simpa [compareCategory, hall, compareBalances_eq_nil_iff] using hbalances
    | orders => simpa [compareCategory, hall, compareOrders_eq_nil_iff] using horders
    | positions => simpa [compareCategory, hall, comparePositions_eq_nil_iff] using hpositions

theorem detect_eq_nil_iff {t : Tolerances} {s : ExchangeSnapshot} {x : ExpectedState}
    (h : s.isUsable = true) : detect t s x = .ok [] ↔ Agreement t s x := by
  have hcategories : detect t s x = .ok [] ↔
      s.collectionError = none ∧ ∀ c, compareCategory t x s c = .ok [] := by
    simp only [detect, h, if_true, bind_eq_ok_iff, pure_eq_ok_iff, List.append_eq_nil_iff,
      Option.toList_eq_nil_iff, connectivity, Option.map_eq_none_iff]
    constructor
    · rintro ⟨b, hb, o, ho, p, hp, ⟨⟨herror, rfl⟩, rfl⟩, rfl⟩
      refine ⟨herror, fun c => ?_⟩
      cases c with
      | balances => exact hb
      | orders => exact ho
      | positions => exact hp
    · rintro ⟨herror, hall⟩
      exact ⟨[], hall .balances, [], hall .orders, [], hall .positions,
        ⟨⟨herror, rfl⟩, rfl⟩, rfl⟩
  rw [hcategories, compareCategory_eq_nil_iff]
  constructor
  · rintro ⟨herror, hall, hbalances, horders, hpositions⟩
    exact ⟨herror, hall, hbalances, horders, hpositions⟩
  · rintro ⟨herror, hall, hbalances, horders, hpositions⟩
    exact ⟨herror, hall, hbalances, horders, hpositions⟩

end Detection

namespace ExchangeSnapshot

theorem discrepancies_eq_nil_iff {s : ExchangeSnapshot} {findings : List Finding} :
    s.discrepancies findings = [] ↔ findings = [] := by
  rw [discrepancies, Discrepancy.sort, ← List.length_eq_zero_iff, List.length_mergeSort,
    List.length_map, List.length_eq_zero_iff]

theorem compareWithLedger_eq_ok_iff {s : ExchangeSnapshot} {t : Tolerances}
    {ledger : LedgerSnapshot} {ds : List Discrepancy} :
    s.compareWithLedger t ledger = .ok ds ↔
      ∃ findings, Detection.detect t s (ledger.expected s.exchange) = .ok findings ∧
        s.discrepancies findings = ds := by
  simp only [compareWithLedger, bind_eq_ok_iff, pure_eq_ok_iff]

end ExchangeSnapshot

end Reconciliation
