/-
# A ledger compared with itself

The ledger and the comparison check records by rules of their own: the ledger wants totals exact
and drops flat positions, the comparison allows a tolerance and looks for sides.  A book that the
ledger keeps passes the other checks too.  So the comparison never finds fault with a record of
the ledger, and an exchange that reports just what the ledger expects is found clean.

* `within_of_same`: equal values are within any tolerance;
* `agreement_mirror`: a sound book agrees with its mirror image;
* `LedgerBook.Reachable.never_accuses_itself`: both, for every state a reachable book retains.
-/
import Reconciliation.Connector.Paper
import Reconciliation.Proofs.Compare.Agreement
import Reconciliation.Proofs.Compare.ReportOrder
import Reconciliation.Proofs.Ledger.Soundness

namespace Reconciliation

/-! ## 1. Tolerances -/

namespace Tolerances

variable {t : Tolerances} {a b : Decimal}

theorem zero_le_absolute (ht : t.validate = .ok ()) : .zero ≤ t.absolute := by
  unfold validate at ht
  split at ht
  · simp at ht
  · rename_i hsign
    rw [Bool.or_eq_true, not_or, Bool.not_eq_true] at hsign
    exact Decimal.isNegative_eq_false_iff.1 hsign.1

/-- Equal values are within any tolerance that can be computed. -/
theorem within_of_same (ht : t.validate = .ok ()) (h : Decimal.Same a b)
    (hshare : ∃ share, t.relative.mul a.abs = .ok share) : t.within a b = .ok true := by
  obtain ⟨share, hshare⟩ := hshare
  obtain ⟨d, hd, hzero⟩ := Decimal.sub_of_same h.symm
  have hle : d.abs ≤ t.absolute.max share :=
    Decimal.le_of_isZero ((Decimal.isZero_abs d).trans hzero)
      (Decimal.zero_le_max (zero_le_absolute ht))
  simp only [within, allowance, hd, hshare, bind_eq_ok_iff, pure_eq_ok_iff]
  exact ⟨d, rfl, t.absolute.max share, ⟨share, rfl, rfl⟩, decide_eq_true hle⟩

/-- Whatever comes out for equal values, they are within tolerance. -/
theorem eq_true_of_within_of_same (ht : t.validate = .ok ()) (h : Decimal.Same a b) {w : Bool}
    (hw : t.within a b = .ok w) : w = true := by
  have hshare : ∃ share, t.relative.mul a.abs = .ok share := by
    simp only [within, allowance, bind_eq_ok_iff, pure_eq_ok_iff] at hw
    obtain ⟨-, -, -, ⟨share, hshare, -⟩, -⟩ := hw
    exact ⟨share, hshare⟩
  rw [within_of_same ht h hshare, Except.ok.injEq] at hw
  exact hw.symm

end Tolerances

/-! ## 2. The mirror image of a book -/

/-- None of the products that are formed to compare the book with itself is too large for a
decimal. -/
structure AccountBook.Measurable (t : Tolerances) (b : AccountBook) : Prop where
  totals : ∀ a v, b.balances.get? a = some v → ∃ share, t.relative.mul v.total.abs = .ok share
  notionals : ∀ s p, b.positions.get? s = some p →
    ∃ notional share, p.signedQuantity.mul (p.referencePrice.getD .one) = .ok notional ∧
      t.relative.mul notional.abs = .ok share

namespace ExchangeSnapshot

/-- What an exchange reports whose account is a book. -/
def mirror (e : ExchangeId) (time : Instant) (b : AccountBook) : ExchangeSnapshot :=
  { exchange := e, capturedAt := time, balances := b.balances
    openOrders := b.orders.values.filter (·.status.isOpen), positions := b.positions.values
    degraded := .const false, collectionError := none }

/-- It is what a paper venue with that account is collected as, if all of its answers arrive. -/
theorem ofFetches_stateOf (v : PaperVenue) (time : Instant) :
    ofFetches v.exchange time (Category.all.map fun c => (c, .ok (v.stateOf c))) =
      mirror v.exchange time v.account := rfl

end ExchangeSnapshot

/-! ## 3. A sound book is found clean -/

namespace Detection

variable {t : Tolerances} {e : ExchangeId} {b : AccountBook}

theorem credible_of_exact (ht : t.validate = .ok ()) {v : Balance} (hv : v.Exact)
    (hshare : ∃ share, t.relative.mul v.total.abs = .ok share) : v.Credible t := by
  obtain ⟨hfree, hlocked, sum, hsum, hsame⟩ := hv
  exact {
    total_nonneg := Decimal.zero_le_of_same hsame (Decimal.add_nonneg hfree hlocked hsum)
    free_nonneg := hfree
    locked_nonneg := hlocked
    adds_up := ⟨sum, hsum, Tolerances.within_of_same ht hsame hshare⟩ }

theorem balancesAgree_self (ht : t.validate = .ok ()) (hb : b.Sound e) (hm : b.Measurable t) :
    BalancesAgree t b.balances b.balances where
  credible_expected a v h := credible_of_exact ht (hb.balances a v h) (hm.totals a v h)
  credible_actual a v h := credible_of_exact ht (hb.balances a v h) (hm.totals a v h)
  both a v v' h h' := by
    rw [h, Option.some.injEq] at h'
    subst h'
    exact Tolerances.within_of_same ht (.refl _) (hm.totals a v h)
  ledger_only a v h h' := by simp [h] at h'
  exchange_only a v h h' := by simp [h] at h'

/-- In a map whose values know their keys, no two values claim one key. -/
theorem nodup_map_values {κ α : Type} [Ord κ] [Std.TransOrd κ] [Std.LawfulEqOrd κ]
    {m : SortedMap κ α} {key : α → κ} (h : ∀ k a, m.get? k = some a → key a = k) :
    (m.values.map key).Nodup := by
  have hkeys : m.values.map key = m.keys := by
    rw [SortedMap.values, SortedMap.keys, List.map_map]
    refine List.map_congr_left fun e hmem => ?_
    exact h e.1 e.2 (SortedMap.mem_entries_iff.1 hmem)
  rw [hkeys]
  exact m.nodup_keys

theorem order_credible_of_sound (hb : b.Sound e) {o : Order} (ho : o ∈ b.orders.values) :
    o.Credible := by
  obtain ⟨id, hget⟩ := SortedMap.mem_values_iff.1 ho
  obtain ⟨-, -, hquantity, hfilled⟩ := hb.orders id o hget
  exact ⟨hquantity, hfilled⟩

theorem nodup_ids (hb : b.Sound e) : (b.orders.values.map (·.id)).Nodup :=
  nodup_map_values fun id o h => (hb.orders id o h).1

theorem ordersAgree_open (hb : b.Sound e) :
    OrdersAgree b.orders.values (b.orders.values.filter (·.status.isOpen)) where
  credible_expected _ ho := order_credible_of_sound hb ho
  credible_actual _ ho := order_credible_of_sound hb (List.mem_filter.1 ho).1
  distinct_expected := nodup_ids hb
  distinct_actual := (nodup_ids hb).sublist (List.filter_sublist.map _)
  known o ho := ⟨o, (List.mem_filter.1 ho).1, rfl, rfl⟩
  present o ho hopen := ⟨o, List.mem_filter.2 ⟨ho, hopen⟩, rfl⟩

theorem position_credible_of_sound (hb : b.Sound e) {p : Position} (hp : p ∈ b.positions.values) :
    p.Credible := by
  obtain ⟨s, hget⟩ := SortedMap.mem_values_iff.1 hp
  obtain ⟨-, -, hquantity, hside⟩ := hb.positions s p hget
  rw [Decimal.zero_lt_iff] at hquantity
  exact ⟨Decimal.zero_le_iff.2 (Int.le_of_lt hquantity), fun _ => hside⟩

theorem nodup_symbols (hb : b.Sound e) : (b.positions.values.map (·.symbol)).Nodup :=
  nodup_map_values fun s p h => (hb.positions s p h).1

/-- A position is worth what it is worth. -/
theorem exposuresAgree_self (ht : t.validate = .ok ()) {p : Position}
    (hm : ∃ notional share, p.signedQuantity.mul (p.referencePrice.getD .one) = .ok notional ∧
      t.relative.mul notional.abs = .ok share) : ExposuresAgree t (some p) (some p) := by
  obtain ⟨notional, share, hnotional, hshare⟩ := hm
  have hprice : sharedPrice (some p) (some p) = p.referencePrice.getD .one := by
    simp [sharedPrice]
  refine ⟨notional, notional, ?_, ?_, Tolerances.within_of_same ht (.refl _) ⟨share, hshare⟩⟩
  · rw [hprice]
    exact hnotional
  · rw [hprice]
    exact hnotional

theorem positionsAgree_self (ht : t.validate = .ok ()) (hb : b.Sound e) (hm : b.Measurable t) :
    PositionsAgree t b.positions.values b.positions.values where
  credible_expected _ hp := position_credible_of_sound hb hp
  credible_actual _ hp := position_credible_of_sound hb hp
  distinct_expected := nodup_symbols hb
  distinct_actual := nodup_symbols hb
  exposures s hs := by
    obtain ⟨p, hp, rfl⟩ := hs.elim id id
    have hfind : positionIn b.positions.values p.symbol = some p :=
      (Index.find?_eq_some_iff_mem (nodup_symbols hb)).2 ⟨hp, rfl⟩
    obtain ⟨s, hget⟩ := SortedMap.mem_values_iff.1 hp
    rw [hfind]
    exact exposuresAgree_self ht (hm.notionals s p hget)

/-- **A sound book agrees with its mirror image.** -/
theorem agreement_mirror (ht : t.validate = .ok ()) (hb : b.Sound e) (hm : b.Measurable t)
    (time : Instant) : Agreement t (.mirror e time b) (.ofBook b) where
  no_error := rfl
  not_degraded c := PerCategory.get_const false c
  balances := balancesAgree_self ht hb hm
  orders := ordersAgree_open hb
  positions := positionsAgree_self ht hb hm

/-! ## 4. No record of a sound book is found wrong -/

/-- A balance that the ledger keeps has no problem that could be computed. -/
theorem balanceProblem_of_exact (ht : t.validate = .ok ()) {v : Balance} (hv : v.Exact)
    {p : Option RecordProblem} (h : balanceProblem t v = .ok p) : p = none := by
  obtain ⟨hfree, hlocked, sum, hsum, hsame⟩ := hv
  have htotal := Decimal.zero_le_of_same hsame (Decimal.add_nonneg hfree hlocked hsum)
  rw [← Decimal.isNegative_eq_false_iff] at hfree hlocked htotal
  simp only [balanceProblem, hfree, hlocked, htotal, Bool.or_self, Bool.false_eq_true, if_false,
    bind_eq_ok_iff, pure_eq_ok_iff] at h
  obtain ⟨sum', hsum', w, hw, rfl⟩ := h
  rw [hsum, Except.ok.injEq] at hsum'
  subst hsum'
  rw [Tolerances.eq_true_of_within_of_same ht hsame hw]
  rfl

theorem balanceProblems_of_sound (ht : t.validate = .ok ()) (hb : b.Sound e)
    {ps : List (AssetId × RecordProblem)} (h : balanceProblems t b.balances = .ok ps) :
    ps = [] := by
  refine List.eq_nil_iff_forall_not_mem.2 fun p hp => ?_
  obtain ⟨⟨a, v⟩, hmem, hproblem⟩ := (mem_of_gather h).1 hp
  simp only [bind_eq_ok_iff, pure_eq_ok_iff] at hproblem
  obtain ⟨o, ho, hsome⟩ := hproblem
  have hv := hb.balances a v (SortedMap.mem_entries_iff.1 hmem)
  rw [balanceProblem_of_exact ht hv ho] at hsome
  cases hsome

theorem problems_indexOrders_of_sound (hb : b.Sound e) :
    (indexOrders b.orders.values).problems = [] :=
  problems_indexOrders_eq_nil_iff.2
    ⟨fun _ ho => order_credible_of_sound hb ho, nodup_ids hb⟩

theorem problems_indexPositions_of_sound (hb : b.Sound e) :
    (indexPositions b.positions.values).problems = [] :=
  problems_indexPositions_eq_nil_iff.2
    ⟨fun _ hp => position_credible_of_sound hb hp, nodup_symbols hb⟩

/-- A record of the ledger is found wrong. -/
def AccusesLedger (f : Finding) : Prop := ∃ key problem, f = .dataIntegrity .ledger key problem

theorem not_accusesLedger_compareBalance {a : AssetId} {x y : Option Balance} {f : Finding}
    (h : compareBalance t a x y = .ok (some f)) : ¬ AccusesLedger f := by
  rintro ⟨key, problem, rfl⟩
  cases x <;> cases y <;> simp only [compareBalance, bind_eq_ok_iff, pure_eq_ok_iff] at h
  · cases h
  · split at h <;> cases h
  · split at h <;> cases h
  · obtain ⟨w, -, h⟩ := h
    split at h <;> simp at h

theorem not_accusesLedger_compareOrder {x y : Option (Option Order)} {f : Finding}
    (h : compareOrder t x y = .ok (some f)) : ¬ AccusesLedger f := by
  rintro ⟨key, problem, rfl⟩
  unfold compareOrder at h
  split at h
  · cases h
  · cases h
  · split at h <;> cases h
  · cases h
  · split at h <;> simp at h
  · cases h

theorem not_accusesLedger_comparePosition {s : Symbol} {x y : Option (Option Position)}
    {f : Finding} (h : comparePosition t s x y = .ok (some f)) : ¬ AccusesLedger f := by
  rintro ⟨key, problem, rfl⟩
  unfold comparePosition at h
  split at h
  · cases h
  · cases h
  · simp only [compareExposure, bind_eq_ok_iff] at h
    obtain ⟨ne, -, nx, -, w, -, h⟩ := h
    split at h <;> simp at h

/-- The findings of a category are those about the records of each side and those about both. -/
theorem not_accusesLedger_of_mem {κ : Type} (text : κ → String)
    {ledger exchange : List (κ × RecordProblem)} {matched : List Finding} (hledger : ledger = [])
    (hmatched : ∀ f ∈ matched, ¬ AccusesLedger f) {f : Finding}
    (hf : f ∈ ledger.map (fun p => Finding.dataIntegrity .ledger (text p.1) p.2) ++
      exchange.map (fun p => Finding.dataIntegrity .exchange (text p.1) p.2) ++ matched) :
    ¬ AccusesLedger f := by
  rw [hledger, List.map_nil, List.nil_append, List.mem_append] at hf
  rcases hf with hf | hf
  · obtain ⟨p, -, rfl⟩ := List.mem_map.1 hf
    rintro ⟨key, problem, h⟩
    cases h
  · exact hmatched f hf

theorem not_accusesLedger_compareCategory (ht : t.validate = .ok ()) (hb : b.Sound e)
    {s : ExchangeSnapshot} {c : Category} {findings : List Finding}
    (h : compareCategory t (.ofBook b) s c = .ok findings) :
    ∀ f ∈ findings, ¬ AccusesLedger f := by
  intro f hf
  unfold compareCategory at h
  split at h
  · cases h
    rintro ⟨key, problem, rfl⟩
    simp at hf
  cases c with
  | balances =>
    simp only [compareBalances, bind_eq_ok_iff, pure_eq_ok_iff] at h
    obtain ⟨ledger, hledger, exchange, -, matched, hmatched, rfl⟩ := h
    refine not_accusesLedger_of_mem Identifier.text (balanceProblems_of_sound ht hb hledger)
      (fun f hf => ?_) hf
    obtain ⟨a, -, ha⟩ := (mem_of_gather hmatched).1 hf
    split at ha
    · cases ha
    · exact not_accusesLedger_compareBalance ha
  | orders =>
    simp only [compareOrders, bind_eq_ok_iff, pure_eq_ok_iff] at h
    obtain ⟨matched, hmatched, rfl⟩ := h
    refine not_accusesLedger_of_mem id (problems_indexOrders_of_sound hb)
      (fun f hf => ?_) hf
    obtain ⟨id, -, hid⟩ := (mem_of_gather hmatched).1 hf
    exact not_accusesLedger_compareOrder hid
  | positions =>
    simp only [comparePositions, bind_eq_ok_iff, pure_eq_ok_iff] at h
    obtain ⟨matched, hmatched, rfl⟩ := h
    refine not_accusesLedger_of_mem Identifier.text (problems_indexPositions_of_sound hb)
      (fun f hf => ?_) hf
    obtain ⟨s, -, hs⟩ := (mem_of_gather hmatched).1 hf
    exact not_accusesLedger_comparePosition hs

/-- **Against a sound book, no comparison finds fault with the ledger's records.** -/
theorem not_accusesLedger_detect (ht : t.validate = .ok ()) (hb : b.Sound e)
    {s : ExchangeSnapshot} {findings : List Finding}
    (h : detect t s (.ofBook b) = .ok findings) : ∀ f ∈ findings, ¬ AccusesLedger f := by
  have hconnectivity : ∀ f ∈ (connectivity s).toList, ¬ AccusesLedger f := by
    rintro f hf ⟨key, problem, rfl⟩
    simp [connectivity] at hf
  intro f hf
  unfold detect at h
  split at h
  · simp only [bind_eq_ok_iff, pure_eq_ok_iff] at h
    obtain ⟨balances, hbalances, orders, horders, positions, hpositions, rfl⟩ := h
    simp only [List.mem_append] at hf
    rcases hf with ((hf | hf) | hf) | hf
    · exact hconnectivity f hf
    · exact not_accusesLedger_compareCategory ht hb hbalances f hf
    · exact not_accusesLedger_compareCategory ht hb horders f hf
    · exact not_accusesLedger_compareCategory ht hb hpositions f hf
  · cases h
    exact hconnectivity f hf

end Detection

/-! ## 5. The states of a ledger -/

/-- Only a finding about a record of the ledger is keyed to the ledger. -/
theorem Finding.accusesLedger_of_entity {f : Finding} {key : String}
    (htype : f.type = .dataIntegrity) (h : f.entity = "ledger:" ++ key) :
    Detection.AccusesLedger f := by
  cases f with
  | dataIntegrity source k problem =>
    cases source with
    | ledger => exact ⟨k, problem, rfl⟩
    | exchange =>
      have hchars := congrArg (fun s => s.toList.head?) h
      simp [entity, Source.name, toString] at hchars
  | _ => cases htype

/-- What a state expects of an exchange is what its book says. -/
theorem LedgerSnapshot.expected_ofState (s : LedgerState) (time : Instant) (e : ExchangeId) :
    (ofState s time).expected e = .ofBook (AccountBooks.book s.books e) := by
  simp only [expected, ofState, SortedMap.get?_mapValues, AccountBooks.book]
  cases s.books.get? e <;> rfl

namespace LedgerBook

/-- **The ledger never accuses itself.**  For every state that a reachable book retains and every
exchange: no comparison with a snapshot of the exchange finds a record of the ledger wrong, and
the snapshot that mirrors the ledger's own book gives no finding at all, as long as the products
that are formed fit decimals. -/
theorem Reachable.never_accuses_itself {b : LedgerBook} (hb : Reachable b) {state : LedgerState}
    (hs : state ∈ b.history) {t : Tolerances} (ht : t.validate = .ok ()) (e : ExchangeId)
    (time : Instant) :
    (∀ s : ExchangeSnapshot, s.exchange = e → ∀ ds,
      s.compareWithLedger t (.ofState state time) = .ok ds →
      ∀ d ∈ ds, d.type = .dataIntegrity → ∀ key, d.entity ≠ "ledger:" ++ key) ∧
    ((AccountBooks.book state.books e).Measurable t → ∀ capturedAt,
      (ExchangeSnapshot.mirror e capturedAt (AccountBooks.book state.books e)).compareWithLedger t
        (.ofState state time) = .ok []) := by
  have hsound := (hb.sound state hs).book e
  constructor
  · rintro s rfl ds hcompare d hd htype key hentity
    obtain ⟨findings, hdetect, rfl⟩ := ExchangeSnapshot.compareWithLedger_eq_ok_iff.1 hcompare
    rw [LedgerSnapshot.expected_ofState] at hdetect
    rw [ExchangeSnapshot.discrepancies, Discrepancy.mem_sort, List.mem_map] at hd
    obtain ⟨f, hf, rfl⟩ := hd
    exact Detection.not_accusesLedger_detect ht hsound hdetect f hf
      (Finding.accusesLedger_of_entity htype hentity)
  · intro hm capturedAt
    rw [ExchangeSnapshot.compareWithLedger_eq_ok_iff]
    refine ⟨[], ?_, ExchangeSnapshot.discrepancies_eq_nil_iff.2 rfl⟩
    refine (Detection.detect_eq_nil_iff rfl).2 ?_
    rw [LedgerSnapshot.expected_ofState]
    exact Detection.agreement_mirror ht hsound hm capturedAt

/-- After a deposit and an order: the exchange mirrors both, or knows of neither. -/
theorem never_accuses_itself_first_deposit :
    let e : ExchangeId := .of .exchange "paper"
    let order : Order :=
      ⟨"1", e, .of .symbol "BTCUSDT", .buy, .one, none, .zero, none, .accepted, none, default⟩
    let deposited :=
      (AccountBook.empty.putBalance (.of .asset "USDT") (.ofFree .one)).putOrder order
    ∃ b : LedgerBook, Reachable b ∧ AccountBooks.book b.latest.books e = deposited ∧
      (ExchangeSnapshot.mirror e default deposited).compareWithLedger .standard
        (.ofState b.latest default) = .ok [] ∧
      ∀ ds, (ExchangeSnapshot.new e default).compareWithLedger .standard
          (.ofState b.latest default) = .ok ds →
        ∀ d ∈ ds, d.type = .dataIntegrity → ∀ key, d.entity ≠ "ledger:" ++ key := by
  intro e order deposited
  have hbooks : AccountBooks.applyAll .empty
      [.setBalance e (.of .asset "USDT") (.ofFree .one), .upsertOrder order] = .ok _ := rfl
  obtain ⟨b, hb, hlatest, -⟩ := exists_reachable_of_applyAll hbooks (by decide)
  have hbook : AccountBooks.book b.latest.books e = deposited := by
    rw [hlatest]
    exact (AccountBooks.book_onBook_self _ e _).trans
      (congrArg (·.putOrder order) (AccountBooks.book_onBook_self .empty e _))
  have hm : (AccountBooks.book b.latest.books e).Measurable .standard := by
    rw [hbook]
    refine ⟨fun a v h => ?_, fun s p h => nomatch h⟩
    rw [show deposited.balances = SortedMap.insert .empty (.of .asset "USDT") (.ofFree .one)
      from rfl, SortedMap.get?_insert] at h
    split at h
    · cases h
      exact ⟨_, rfl⟩
    · cases h
  have ht : Tolerances.validate .standard = .ok () := rfl
  obtain ⟨hfaultless, hmirror⟩ :=
    hb.never_accuses_itself List.mem_cons_self ht e default
  exact ⟨b, hb, hbook, hbook ▸ hmirror hm default, hfaultless _ rfl⟩

end LedgerBook

end Reconciliation
