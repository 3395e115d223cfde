/-
# The shape of a report

Whatever is compared, the report of it has one shape: it is sorted, all of it is about the
snapshot's exchange and time, and each severity is one that its type can have.  What could not be
collected shows in it once: one discrepancy for a failed collection, and one for each category
that was skipped, or nothing else if all were.  The records of a skipped category are not looked
at, on either side.

* `Discrepancy.NotAfter`: the order of a report, in words and not by the comparison that sorts it;
* `ExchangeSnapshot.Built`: the snapshots that collections make;
* `ExchangeSnapshot.WellFormed`: the shape of their reports;
* `compareCategory_eq_of_agreesOn`: a category that was lost may hold any records;
* `ExchangeSnapshot.compareWithLedger_wellFormed`: both, for whole comparisons.
-/
import Reconciliation.Proofs.Compare.Subject
import Reconciliation.Proofs.Compare.Tolerances

namespace Reconciliation

/-! ## 1. Snapshots and reports -/

/-- The types in the order of their declaration, which is that of a report. -/
def DiscrepancyType.listing : List DiscrepancyType :=
  [.balanceMismatch, .unexpectedAsset, .missingAsset, .orderMissing, .orderUntracked,
    .orderStatusMismatch, .positionMismatch, .connectivity, .detectionSkipped, .dataIntegrity]

/-- `a.NotAfter b`: the first of exchange, place of the type, entity and id in which they differ is
smaller in `a`, or they differ in none. -/
def Discrepancy.NotAfter (a b : Discrepancy) : Prop :=
  a.exchange.text < b.exchange.text ∨ a.exchange = b.exchange ∧
    (DiscrepancyType.listing.idxOf a.type < DiscrepancyType.listing.idxOf b.type ∨
      a.type = b.type ∧ (a.entity < b.entity ∨ a.entity = b.entity ∧ a.id.value ≤ b.id.value))

/-- `r.AgreesOn c r'`: the records of the category are the same. -/
def ExpectedState.AgreesOn (c : Category) (r r' : ExpectedState) : Prop :=
  match c with
  | .balances => r.balances = r'.balances
  | .orders => r.orders = r'.orders
  | .positions => r.positions = r'.positions

namespace ExchangeSnapshot

/-- The snapshots that are made from empty ones, or from those of failed collections, by marking
categories as lost and by putting any records in. -/
inductive Built : ExchangeSnapshot → Prop
  | new (exchange : ExchangeId) (time : Instant) : Built (new exchange time)
  | unavailable (exchange : ExchangeId) (time : Instant) (error : String) :
    Built (unavailable exchange time error)
  | markDegraded {s : ExchangeSnapshot} (c : Category) (error : String) (h : Built s) :
    Built (s.markDegraded c error)
  | withRecords {s : ExchangeSnapshot} (r : ExpectedState) (h : Built s) : Built (s.withRecords r)

/-- A snapshot does not lose a category without an error. -/
theorem Built.collectionError_isSome {s : ExchangeSnapshot} (h : s.Built) {c : Category}
    (hc : s.isDegraded c = true) : s.collectionError.isSome = true := by
  induction h with
  | new => cases c <;> cases hc
  | unavailable => rfl
  | markDegraded => rfl
  | withRecords r h ih => exact ih hc

/-- `s.WellFormed ds`: the discrepancies have the shape of a report about the snapshot. -/
structure WellFormed (s : ExchangeSnapshot) (ds : List Discrepancy) : Prop where
  sorted : ds.Pairwise Discrepancy.NotAfter
  stamped : ∀ d ∈ ds, d.exchange = s.exchange ∧ d.detectedAt = s.capturedAt
  fixed : ∀ d ∈ ds, ∀ v, d.type.fixedSeverity = some v → d.severity = v
  graded : ∀ d ∈ ds, d.type.fixedSeverity = none → d.severity = .warning ∨ d.severity = .critical
  connectivity : ds.countP (·.type = .connectivity) = if s.collectionError.isSome then 1 else 0
  /-- If every category was lost, that is all there is to report. -/
  unavailable : (∀ c, s.isDegraded c = true) → ∃ d, ds = [d] ∧ d.type = .connectivity
  /-- Otherwise each of those that were lost is reported, and reported once. -/
  skipped : (∃ c, s.isDegraded c = false) →
    ((ds.filter (·.type = .detectionSkipped)).map (·.entity)).Perm
      (s.degraded.members.map Category.name)

end ExchangeSnapshot

/-! ## 2. Severities -/

namespace Detection

variable {t : Tolerances} {s : ExchangeSnapshot} {x x' r : ExpectedState} {c : Category}
  {f : Finding} {findings : List Finding}

/-- Two amounts that diverge are graded. -/
theorem severity_amounts {expected actual : Decimal} {divergent : Decimal → Severity → Finding}
    (hdivergent : ∀ delta v, (divergent delta v).severity = v)
    (h : (do
      if ← t.within expected actual then return none
      else
        let delta ← actual.sub expected
        let severity ← t.severityFor expected delta
        return some (divergent delta severity) : Checked (Option Finding)) = .ok (some f)) :
    f.severity ≠ .info := by
  simp only [bind_eq_ok_iff] at h
  obtain ⟨w, -, h⟩ := h
  split at h
  · cases h
  · simp only [bind_eq_ok_iff, pure_eq_ok_iff, Option.some.injEq] at h
    obtain ⟨delta, -, v, hv, rfl⟩ := h
    rw [hdivergent]
    exact Tolerances.severityFor_ne_info hv

theorem severity_compareBalance {a : AssetId} {b b' : Option Balance}
    (h : compareBalance t a b b' = .ok (some f)) : f.severity ≠ .info := by
  unfold compareBalance at h
  split at h
  · exact severity_amounts (fun _ _ => rfl) h
  · rw [pure_eq_ok_iff] at h
    split at h <;> cases h
    intro hinfo
    cases hinfo
  · rw [pure_eq_ok_iff] at h
    split at h <;> cases h
    intro hinfo
    cases hinfo
  · cases h

theorem severity_compareOrder {a b : Option (Option Order)}
    (h : compareOrder t a b = .ok (some f)) : f.severity ≠ .info := by
  unfold compareOrder at h
  split at h
  · cases h
  · cases h
  · split at h <;> cases h
    intro hinfo
    cases hinfo
  · cases h
    intro hinfo
    cases hinfo
  · split at h
    · cases h
    · simp only [statusSeverity, bind_eq_ok_iff, pure_eq_ok_iff, Option.some.injEq] at h
      obtain ⟨v, ⟨n, -, m, -, w, -, rfl⟩, rfl⟩ := h
      intro hinfo
      cases w <;> cases hinfo
  · cases h

theorem severity_comparePosition {symbol : Symbol} {p p' : Option (Option Position)}
    (h : comparePosition t symbol p p' = .ok (some f)) : f.severity ≠ .info := by
  unfold comparePosition at h
  split at h
  · cases h
  · cases h
  · simp only [compareExposure, bind_eq_ok_iff (x := Decimal.mul _ _)] at h
    obtain ⟨n, -, m, -, h⟩ := h
    exact severity_amounts (fun _ _ => rfl) h

/-- Nothing is merely noted but that a category was skipped. -/
theorem severity_of_mem_compareCategory (h : compareCategory t x s c = .ok findings)
    (hf : f ∈ findings) : f.severity ≠ .info ∨ f.type = .detectionSkipped := by
  have hscan : ∀ {κ : Type} {subject : κ → Subject} {a : Scan κ}, a.run subject = .ok findings →
      (∀ k f, a.check k = .ok (some f) → f.severity ≠ .info) → f.severity ≠ .info := by
    intro κ subject a hrun hcheck
    rcases (Scan.mem_of_run hrun).1 hf with ⟨source, p, -, rfl⟩ | ⟨k, -, hk⟩
    · intro hinfo
      cases hinfo
    · exact hcheck k f hk
  cases hc : s.isDegraded c with
  | true =>
    rw [compareCategory_of_isDegraded hc, Except.ok.injEq] at h
    rw [← h, List.mem_singleton] at hf
    exact .inr (hf ▸ rfl)
  | false =>
    left
    cases c with
    | balances =>
      obtain ⟨problems, -, hrun⟩ := (compareCategory_balances_eq_ok_iff hc).1 h
      refine hscan hrun fun a g hg => ?_
      rw [check_balanceScan] at hg
      have hcompared := check_of_checkExcept hg
      exact severity_compareBalance hcompared
    | orders =>
      rw [compareCategory_orders hc] at h
      exact hscan h fun _ _ => severity_compareOrder
    | positions =>
      rw [compareCategory_positions hc] at h
      exact hscan h fun _ _ => severity_comparePosition

/-- What has no fixed severity is a warning or critical. -/
theorem severity_of_mem_detect (h : detect t s x = .ok findings) (hf : f ∈ findings)
    (hgraded : f.type.fixedSeverity = none) : f.severity = .warning ∨ f.severity = .critical := by
  have hcompared : ∀ {c l}, compareCategory t x s c = .ok l → f ∈ l →
      f.severity = .warning ∨ f.severity = .critical := by
    intro c l hl hf
    rcases severity_of_mem_compareCategory hl hf with hinfo | hskipped
    · cases hv : f.severity with
      | info => exact absurd hv hinfo
      | warning => exact .inl rfl
      | critical => exact .inr rfl
    · rw [hskipped] at hgraded
      cases hgraded
  have hconnectivity : f ∉ (connectivity s).toList := by
    intro hf
    rw [type_of_mem_connectivity hf] at hgraded
    cases hgraded
  rcases detect_cases h with ⟨-, rfl⟩ | ⟨-, b, o, p, hb, ho, hp, rfl⟩
  · exact absurd hf hconnectivity
  · simp only [List.mem_append, hconnectivity, false_or] at hf
    rcases hf with (hf | hf) | hf
    · exact hcompared hb hf
    · exact hcompared ho hf
    · exact hcompared hp hf

/-! ## 3. Lost categories -/

/-- A category that was lost may hold any records, and one that was not is all that is compared. -/
theorem compareCategory_eq_of_agreesOn (h : s.isDegraded c = false →
      ∀ source, (s.sides x source).AgreesOn c ((s.withRecords r).sides x' source)) :
    compareCategory t x' (s.withRecords r) c = compareCategory t x s c := by
  cases hc : s.isDegraded c with
  | true =>
    have hc' : (s.withRecords r).isDegraded c = true := hc
    rw [compareCategory_of_isDegraded hc, compareCategory_of_isDegraded hc']
  | false =>
    have hc' : (s.withRecords r).isDegraded c = false := hc
    have hagree := h hc
    cases c with
    | balances =>
      simp only [ExpectedState.AgreesOn] at hagree
      rw [compareCategory_balances hc, compareCategory_balances hc', hagree, hagree]
    | orders =>
      simp only [ExpectedState.AgreesOn] at hagree
      rw [compareCategory_orders hc, compareCategory_orders hc', funext hagree]
    | positions =>
      simp only [ExpectedState.AgreesOn] at hagree
      rw [compareCategory_positions hc, compareCategory_positions hc', funext hagree]

theorem detect_eq_of_agreesOn (h : ∀ c, s.isDegraded c = false →
      ∀ source, (s.sides x source).AgreesOn c ((s.withRecords r).sides x' source)) :
    detect t (s.withRecords r) x' = detect t s x := by
  have husable : (s.withRecords r).isUsable = s.isUsable := rfl
  unfold detect
  rw [husable, compareCategory_eq_of_agreesOn (h .balances),
    compareCategory_eq_of_agreesOn (h .orders), compareCategory_eq_of_agreesOn (h .positions)]
  rfl

end Detection

/-! ## 4. Reports -/

theorem DiscrepancyType.rank_eq_idxOf (t : DiscrepancyType) : t.rank = listing.idxOf t := by
  cases t <;> rfl

/-- What the sorting of a report puts first is not after the other. -/
theorem Discrepancy.notAfter_of_isLE {a b : Discrepancy} (h : (compareKeys a b).isLE = true) :
    a.NotAfter b := by
  simp only [compareKeys, Ordering.isLE_then_iff_or] at h
  rcases h with hexchange | ⟨hexchange, htype | ⟨htype, hentity | ⟨hentity, hid⟩⟩⟩
  · exact .inl (compareOfLessAndEq_eq_lt.1 hexchange)
  all_goals refine .inr ⟨Std.LawfulEqOrd.eq_of_compare hexchange, ?_⟩
  · rw [Nat.compare_eq_lt, DiscrepancyType.rank_eq_idxOf, DiscrepancyType.rank_eq_idxOf] at htype
    exact .inl htype
  all_goals refine .inr ⟨rank_inj (Std.LawfulEqOrd.eq_of_compare htype), ?_⟩
  · exact .inl (compareOfLessAndEq_eq_lt.1 hentity)
  · exact .inr ⟨Std.LawfulEqOrd.eq_of_compare hentity, Nat.isLE_compare.1 hid⟩

namespace ExchangeSnapshot

variable {t : Tolerances} {s : ExchangeSnapshot} {x : ExpectedState} {findings : List Finding}

theorem isUsable_eq_false_iff : s.isUsable = false ↔ ∀ c, s.isDegraded c = true := by
  simp [isUsable]

theorem connectivity_discrepancies (h : Detection.detect t s x = .ok findings) :
    (s.discrepancies findings).countP (·.type = .connectivity) =
      if s.collectionError.isSome then 1 else 0 := by
  rw [List.countP_eq_length_filter, (filter_type_discrepancies _).length_eq, List.length_map,
    Detection.filter_connectivity_detect h, Detection.connectivity]
  cases s.collectionError <;> rfl

theorem skipped_discrepancies (h : Detection.detect t s x = .ok findings)
    (husable : s.isUsable = true) :
    (((s.discrepancies findings).filter (·.type = .detectionSkipped)).map (·.entity)).Perm
      (s.degraded.members.map Category.name) := by
  refine ((filter_type_discrepancies _).map _).trans (.of_eq ?_)
  rw [Detection.filter_skipped_detect h, if_pos husable, List.map_map, List.map_map]
  rfl

/-- The report of a snapshot that lost every category, to an error. -/
theorem discrepancies_of_not_isUsable (h : Detection.detect t s x = .ok findings)
    (husable : s.isUsable = false) (herror : s.collectionError.isSome = true) :
    ∃ d, s.discrepancies findings = [d] ∧ d.type = .connectivity := by
  rcases Detection.detect_cases h with ⟨-, rfl⟩ | ⟨hs, -⟩
  · obtain ⟨error, herror⟩ := Option.isSome_iff_exists.1 herror
    rw [Detection.connectivity, herror]
    exact ⟨_, List.mergeSort_singleton _, rfl⟩
  · rw [husable] at hs
    cases hs

theorem wellFormed_discrepancies (hs : s.Built) (h : Detection.detect t s x = .ok findings) :
    s.WellFormed (s.discrepancies findings) where
  sorted := (Discrepancy.pairwise_sort _).imp Discrepancy.notAfter_of_isLE
  stamped := by
    intro d hd
    obtain ⟨f, -, rfl⟩ := mem_discrepancies.1 hd
    exact ⟨f.exchange_discrepancy _ _, rfl⟩
  fixed := by
    intro d hd v hv
    obtain ⟨f, -, rfl⟩ := mem_discrepancies.1 hd
    rw [Finding.type_discrepancy] at hv
    rw [Finding.severity_discrepancy]
    exact Finding.severity_of_fixed hv
  graded := by
    intro d hd hgraded
    obtain ⟨f, hf, rfl⟩ := mem_discrepancies.1 hd
    rw [Finding.type_discrepancy] at hgraded
    rw [Finding.severity_discrepancy]
    exact Detection.severity_of_mem_detect h hf hgraded
  connectivity := connectivity_discrepancies h
  unavailable hall := discrepancies_of_not_isUsable h (isUsable_eq_false_iff.2 hall)
    (hs.collectionError_isSome (hall .balances))
  skipped := by
    rintro ⟨c, hc⟩
    exact skipped_discrepancies h (Detection.isUsable_of_isDegraded_eq_false hc)

/-- **Reports are well formed.**  Of a snapshot that a collection made, every comparison that comes
out gives a list of the shape of a report; and records of a category that was lost, on the exchange
or in the ledger, have no influence on how it comes out. -/
theorem compareWithLedger_wellFormed (t : Tolerances) {s : ExchangeSnapshot} (hs : s.Built)
    (ledger : LedgerSnapshot) :
    (∀ ds, s.compareWithLedger t ledger = .ok ds → s.WellFormed ds) ∧
      ∀ (r : ExpectedState) (ledger' : LedgerSnapshot),
        (∀ c, s.isDegraded c = false → s.reported.AgreesOn c r ∧
          (ledger.expected s.exchange).AgreesOn c (ledger'.expected s.exchange)) →
        (s.withRecords r).compareWithLedger t ledger' = s.compareWithLedger t ledger := by
  constructor
  · intro ds h
    obtain ⟨findings, hdetect, rfl⟩ := compareWithLedger_eq_ok_iff.1 h
    exact wellFormed_discrepancies hs hdetect
  · intro r ledger' hagree
    have hexchange : (s.withRecords r).exchange = s.exchange := rfl
    have hdetect : Detection.detect t (s.withRecords r) (ledger'.expected s.exchange) =
        Detection.detect t s (ledger.expected s.exchange) := by
      refine Detection.detect_eq_of_agreesOn fun c hc source => ?_
      cases source with
      | ledger => exact (hagree c hc).2
      | exchange => exact (hagree c hc).1
    rw [compareWithLedger, compareWithLedger, hexchange, hdetect]
    rfl

/-- A snapshot with a coin, whose orders were lost: it may hold an order or none. -/
theorem compareWithLedger_wellFormed_without_orders :
    let e : ExchangeId := .of .exchange "paper"
    let coins : SortedMap AssetId Balance := .insert .empty (.of .asset "BTC") (.ofFree .one)
    let s := ((new e default).withRecords ⟨coins, [], []⟩).markDegraded .orders "timeout"
    let o : Order :=
      ⟨"1", e, .of .symbol "BTCUSDT", .buy, -.one, none, .zero, none, .accepted, none, default⟩
    let ledger : LedgerSnapshot := ⟨default, 1, default, .empty⟩
    let ds := s.discrepancies [.connectivity e "orders: timeout",
      .unexpectedAsset (.of .asset "BTC") .one, .detectionSkipped .orders]
    s.Built ∧ s.compareWithLedger .standard ledger = .ok ds ∧ s.WellFormed ds ∧
      (s.withRecords ⟨coins, [o], []⟩).compareWithLedger .standard ledger = .ok ds := by
  intro e coins s o ledger ds
  have hs : s.Built := .markDegraded _ _ (.withRecords _ (.new _ _))
  have hdetect : Detection.detect .standard s (ledger.expected s.exchange) =
      .ok [.connectivity e "orders: timeout", .unexpectedAsset (.of .asset "BTC") .one,
        .detectionSkipped .orders] := by decide +kernel
  have h : s.compareWithLedger .standard ledger = .ok ds :=
    compareWithLedger_eq_ok_iff.2 ⟨_, hdetect, rfl⟩
  obtain ⟨hwellFormed, hlost⟩ := compareWithLedger_wellFormed .standard hs ledger
  refine ⟨hs, h, hwellFormed ds h, (hlost ⟨coins, [o], []⟩ ledger fun c hc => ⟨?_, ?_⟩).trans h⟩
  · cases c with
    | balances => rfl
    | orders => cases hc
    | positions => rfl
  · cases c <;> rfl

end ExchangeSnapshot

end Reconciliation
