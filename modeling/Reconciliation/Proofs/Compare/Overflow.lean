/-
# When a comparison comes out

A comparison is stopped by a number that no decimal can hold, and by nothing else.  Which numbers
it computes depends on the records: the parts of every balance are added up, and the values of
records with one key are subtracted, multiplied with a price, and divided by one another.

* `Tolerances.exists_within_iff`, `Tolerances.exists_severityFor_iff`: the judgement of two values;
* `Detection.InRange`: every number that a comparison computes is in range;
* `ExchangeSnapshot.compareWithLedger_returns_iff`: the comparison comes out exactly then;
* `ExchangeSnapshot.compareWithLedger_overflow`: one balance is enough to lose all findings.
-/
import Reconciliation.Proofs.Compare.Agreement
import Reconciliation.Proofs.Compare.Findings
import Reconciliation.Proofs.Numeric.Overflow

namespace Reconciliation

open Decimal (Fits)

/-! ## 1. Tolerances -/

namespace Tolerances

variable {t : Tolerances} {expected actual delta : Decimal}

theorem exists_allowance_iff :
    (∃ d, t.allowance expected = .ok d) ↔ Fits (t.relative.value * expected.value) := by
  have habs : Fits (t.relative.value * expected.abs.value) ↔
      Fits (t.relative.value * expected.value) := by
    rw [Decimal.value_abs, ← Decimal.fits_abs, abs_mul, abs_abs, ← abs_mul, Decimal.fits_abs]
  rw [← habs, ← Decimal.exists_mul_iff, allowance, exists_bind_pure_iff]

theorem exists_within_iff : (∃ w, t.within expected actual = .ok w) ↔
    Fits (actual.value - expected.value) ∧ Fits (t.relative.value * expected.value) := by
  rw [← Decimal.exists_sub_iff, ← exists_allowance_iff, within, exists_bind_eq_ok_iff]
  constructor
  · rintro ⟨d, hd, h⟩
    obtain ⟨a, ha, -⟩ := exists_bind_eq_ok_iff.1 h
    exact ⟨⟨d, hd⟩, a, ha⟩
  · rintro ⟨⟨d, hd⟩, a, ha⟩
    exact ⟨d, hd, exists_bind_eq_ok_iff.2 ⟨a, ha, _, rfl⟩⟩

/-- How bad a divergence is can be told unless it is too many times the expected value. -/
theorem exists_severityFor_iff : (∃ v, t.severityFor expected delta = .ok v) ↔
    (expected.isZero = false → Fits (delta.value / expected.value)) := by
  unfold severityFor
  cases hzero : expected.isZero with
  | true => exact iff_of_true ⟨.critical, rfl⟩ nofun
  | false =>
    have hzero' : expected.abs.isZero = false := (Decimal.isZero_abs expected).trans hzero
    have hratio : (∃ r, delta.abs.div expected.abs = .ok r) ↔ _ := Decimal.exists_div_iff hzero'
    rw [Decimal.value_abs, Decimal.value_abs, ← abs_div, Decimal.fits_abs] at hratio
    rw [if_neg Bool.false_ne_true, exists_bind_pure_iff, forall_prop_of_true rfl, hratio]

/-- `t.Judges expected actual`: it can be told whether two values diverge, and how badly. -/
structure Judges (t : Tolerances) (expected actual : Decimal) : Prop where
  difference : Fits (actual.value - expected.value)
  allowance : Fits (t.relative.value * expected.value)
  ratio : t.within expected actual = .ok false → expected.isZero = false →
    ∀ delta, actual.sub expected = .ok delta → Fits (delta.value / expected.value)

/-- Two amounts are judged by whether they diverge, and if so by how much. -/
theorem judges_iff {β : Type} {same : β} {divergent : Decimal → Severity → β} :
    (∃ b, (do
      if ← t.within expected actual then return same
      else
        let delta ← actual.sub expected
        let severity ← t.severityFor expected delta
        return divergent delta severity : Except Decimal.Overflow β) = .ok b) ↔
      t.Judges expected actual := by
  rw [exists_bind_eq_ok_iff]
  constructor
  · rintro ⟨w, hw, hjudged⟩
    obtain ⟨hdifference, hallowance⟩ := exists_within_iff.1 ⟨w, hw⟩
    refine ⟨hdifference, hallowance, fun hfalse hzero delta hdelta => ?_⟩
    obtain rfl : w = false := Except.ok.inj (hw.symm.trans hfalse)
    obtain ⟨delta', hdelta', hrest⟩ := exists_bind_eq_ok_iff.1 hjudged
    obtain rfl : delta' = delta := Except.ok.inj (hdelta'.symm.trans hdelta)
    obtain ⟨severity, hseverity, -⟩ := exists_bind_eq_ok_iff.1 hrest
    exact exists_severityFor_iff.1 ⟨severity, hseverity⟩ hzero
  · intro h
    obtain ⟨w, hw⟩ := exists_within_iff.2 ⟨h.difference, h.allowance⟩
    refine ⟨w, hw, ?_⟩
    cases w with
    | true => exact ⟨same, rfl⟩
    | false =>
      obtain ⟨delta, hdelta⟩ := Decimal.exists_sub_iff.2 h.difference
      obtain ⟨severity, hseverity⟩ :=
        exists_severityFor_iff.2 fun hzero => h.ratio hw hzero delta hdelta
      rw [if_neg Bool.false_ne_true, exists_bind_eq_ok_iff]
      exact ⟨delta, hdelta, exists_bind_eq_ok_iff.2 ⟨severity, hseverity, _, rfl⟩⟩

end Tolerances

/-! ## 2. Balances -/

/-- `b.InRange t`: a balance can be checked by itself.  One with a negative amount always can. -/
def Balance.InRange (t : Tolerances) (b : Balance) : Prop :=
  .zero ≤ b.total → .zero ≤ b.free → .zero ≤ b.locked →
    Fits (b.free.value + b.locked.value) ∧ Fits (t.relative.value * b.total.value)

namespace Detection

variable {t : Tolerances}

theorem exists_balanceProblem_iff {b : Balance} :
    (∃ o, balanceProblem t b = .ok o) ↔ b.InRange t := by
  unfold balanceProblem
  cases hsign : b.total.isNegative || b.free.isNegative || b.locked.isNegative with
  | true =>
    refine iff_of_true ⟨_, rfl⟩ fun htotal hfree hlocked => ?_
    simp [Decimal.isNegative_eq_false_iff.2 htotal, Decimal.isNegative_eq_false_iff.2 hfree,
      Decimal.isNegative_eq_false_iff.2 hlocked] at hsign
  | false =>
    obtain ⟨⟨htotal, hfree⟩, hlocked⟩ : (b.total.isNegative = false ∧ b.free.isNegative = false) ∧
        b.locked.isNegative = false := by simpa using hsign
    rw [Decimal.isNegative_eq_false_iff] at htotal hfree hlocked
    have hparts : ∀ parts, b.free.add b.locked = .ok parts →
        ((∃ w, t.within b.total parts = .ok w) ↔ Fits (t.relative.value * b.total.value)) := by
      intro parts hparts
      rw [Tolerances.exists_within_iff]
      exact and_iff_right
        (Decimal.fits_sub_of_nonneg (Decimal.add_nonneg hfree hlocked hparts) htotal)
    rw [if_neg Bool.false_ne_true, exists_bind_eq_ok_iff, Balance.InRange,
      forall_prop_of_true htotal, forall_prop_of_true hfree, forall_prop_of_true hlocked,
      ← Decimal.exists_add_iff]
    constructor
    · rintro ⟨parts, hadd, h⟩
      obtain ⟨w, hw, -⟩ := exists_bind_eq_ok_iff.1 h
      exact ⟨⟨parts, hadd⟩, (hparts parts hadd).1 ⟨w, hw⟩⟩
    · rintro ⟨⟨parts, hadd⟩, hallowance⟩
      obtain ⟨w, hw⟩ := (hparts parts hadd).2 hallowance
      exact ⟨parts, hadd, exists_bind_eq_ok_iff.2 ⟨w, hw, _, rfl⟩⟩

theorem exists_balanceProblems_iff {balances : SortedMap AssetId Balance} :
    (∃ l, balanceProblems t balances = .ok l) ↔
      ∀ a b, balances.get? a = some b → b.InRange t := by
  rw [balanceProblems, exists_gather_iff]
  have hcheck : ∀ a b, (∃ o, (do return (← balanceProblem t b).map (a, ·) :
      Checked (Option (AssetId × RecordProblem))) = .ok o) ↔ b.InRange t := by
    intro a b
    rw [exists_bind_pure_iff, exists_balanceProblem_iff]
  constructor
  · intro h a b hb
    exact (hcheck a b).1 (h (a, b) (SortedMap.mem_entries_iff.2 hb))
  · rintro h ⟨a, b⟩ hb
    exact (hcheck a b).2 (h a b (SortedMap.mem_entries_iff.1 hb))

theorem exists_compareBalance_iff {asset : AssetId} {e x : Balance} :
    (∃ o, compareBalance t asset (some e) (some x) = .ok o) ↔ t.Judges e.total x.total :=
  Tolerances.judges_iff

/-- Every balance can be checked, and where both sides hold a sound one, the two totals can be
judged. -/
structure BalancesInRange (t : Tolerances) (expected actual : SortedMap AssetId Balance) :
    Prop where
  ledger : ∀ a b, expected.get? a = some b → b.InRange t
  exchange : ∀ a b, actual.get? a = some b → b.InRange t
  both : ∀ a e x, expected.get? a = some e → actual.get? a = some x → e.Credible t →
    x.Credible t → t.Judges e.total x.total

/-- The balances with a problem are those that cannot be believed. -/
theorem mem_problems_iff {balances : SortedMap AssetId Balance}
    {l : List (AssetId × RecordProblem)} (h : balanceProblems t balances = .ok l) {a : AssetId} :
    a ∈ l.map (·.1) ↔ ∃ b, balances.get? a = some b ∧ ¬ b.Credible t := by
  have hcheck : ∀ q b p, (do return (← balanceProblem t b).map (q, ·) :
      Checked (Option (AssetId × RecordProblem))) = .ok (some p) ↔
        p.1 = q ∧ balanceProblem t b = .ok (some p.2) := by
    rintro q b ⟨q', problem⟩
    simp only [bind_eq_ok_iff, pure_eq_ok_iff, Option.map_eq_some_iff, Prod.mk.injEq]
    constructor
    · rintro ⟨o, ho, problem', rfl, rfl, rfl⟩
      exact ⟨rfl, ho⟩
    · rintro ⟨rfl, ho⟩
      exact ⟨_, ho, problem, rfl, rfl, rfl⟩
  have hexists : ∀ b, balances.get? a = some b → ∃ o, balanceProblem t b = .ok o := fun b hb =>
    exists_balanceProblem_iff.2 (exists_balanceProblems_iff.1 ⟨l, h⟩ a b hb)
  rw [List.mem_map]
  constructor
  · rintro ⟨p, hp, rfl⟩
    obtain ⟨⟨q, b⟩, hb, hfound⟩ := (mem_of_gather h).1 hp
    obtain ⟨hpq, hproblem⟩ := (hcheck q b p).1 hfound
    refine ⟨b, hpq ▸ SortedMap.mem_entries_iff.1 hb, fun hcredible => ?_⟩
    rw [balanceProblem_eq_none_iff.2 hcredible] at hproblem
    cases hproblem
  · rintro ⟨b, hb, hcredible⟩
    obtain ⟨o, ho⟩ := hexists b hb
    cases o with
    | none => exact absurd (balanceProblem_eq_none_iff.1 ho) hcredible
    | some problem =>
      refine ⟨(a, problem), (mem_of_gather h).2 ⟨(a, b), SortedMap.mem_entries_iff.2 hb, ?_⟩, rfl⟩
      exact (hcheck a b (a, problem)).2 ⟨rfl, ho⟩

theorem exists_compareBalances_iff {expected actual : SortedMap AssetId Balance} :
    (∃ l, compareBalances t expected actual = .ok l) ↔ BalancesInRange t expected actual := by
  have hmatched : ∀ ledger exchange, balanceProblems t expected = .ok ledger →
      balanceProblems t actual = .ok exchange →
        ((∃ l, gather (fun a => if a ∈ (ledger ++ exchange).map (·.1) then return none
          else compareBalance t a (expected.get? a) (actual.get? a))
            (unionKeys expected actual) = .ok l) ↔
          ∀ a e x, expected.get? a = some e → actual.get? a = some x → e.Credible t →
            x.Credible t → t.Judges e.total x.total) := by
    intro ledger exchange hledger hexchange
    have hmem : ∀ a, a ∈ (ledger ++ exchange).map (·.1) ↔
        (∃ e, expected.get? a = some e ∧ ¬ e.Credible t) ∨
          ∃ x, actual.get? a = some x ∧ ¬ x.Credible t := by
      intro a
      rw [List.map_append, List.mem_append, mem_problems_iff hledger, mem_problems_iff hexchange]
    rw [exists_gather_unionKeys_iff]
    · constructor
      · intro h a e x he hx hce hcx
        have hsound : a ∉ (ledger ++ exchange).map (·.1) := by
          rw [hmem]
          rintro (⟨e', he', hce'⟩ | ⟨x', hx', hcx'⟩)
          · exact hce' (Option.some.inj (he.symm.trans he') ▸ hce)
          · exact hcx' (Option.some.inj (hx.symm.trans hx') ▸ hcx)
        have ha := h a
        rw [if_neg hsound, he, hx] at ha
        exact exists_compareBalance_iff.1 ha
      · intro h a
        by_cases hsound : a ∈ (ledger ++ exchange).map (·.1)
        · exact ⟨none, if_pos hsound⟩
        · rw [if_neg hsound]
          rw [hmem, not_or, not_exists, not_exists] at hsound
          cases he : expected.get? a with
          | none =>
            cases hx : actual.get? a with
            | none => exact ⟨_, rfl⟩
            | some x => exact ⟨_, rfl⟩
          | some e =>
            cases hx : actual.get? a with
            | none => exact ⟨_, rfl⟩
            | some x =>
              have hce : e.Credible t := not_not.1 fun hce => hsound.1 e ⟨he, hce⟩
              have hcx : x.Credible t := not_not.1 fun hcx => hsound.2 x ⟨hx, hcx⟩
              exact exists_compareBalance_iff.2 (h a e x he hx hce hcx)
    · intro a he hx
      rw [he, hx]
      split
      · exact ⟨none, rfl⟩
      · exact ⟨none, rfl⟩
  unfold compareBalances
  rw [exists_bind_eq_ok_iff]
  constructor
  · rintro ⟨ledger, hledger, h⟩
    obtain ⟨exchange, hexchange, h⟩ := exists_bind_eq_ok_iff.1 h
    obtain ⟨found, hfound, -⟩ := exists_bind_eq_ok_iff.1 h
    exact ⟨exists_balanceProblems_iff.1 ⟨ledger, hledger⟩,
      exists_balanceProblems_iff.1 ⟨exchange, hexchange⟩,
      (hmatched ledger exchange hledger hexchange).1 ⟨found, hfound⟩⟩
  · intro h
    obtain ⟨ledger, hledger⟩ := exists_balanceProblems_iff.2 h.ledger
    obtain ⟨exchange, hexchange⟩ := exists_balanceProblems_iff.2 h.exchange
    obtain ⟨found, hfound⟩ := (hmatched ledger exchange hledger hexchange).2 h.both
    refine ⟨ledger, hledger, exists_bind_eq_ok_iff.2 ⟨exchange, hexchange, ?_⟩⟩
    exact exists_bind_eq_ok_iff.2 ⟨found, hfound, _, rfl⟩

/-! ## 3. Amounts at a price -/

/-- `InRangeAt price a b judged`: two amounts can be valued at a price, and what they are worth
can be judged. -/
structure InRangeAt (price a b : Decimal) (judged : Decimal → Decimal → Prop) : Prop where
  first : Fits (a.value * price.value)
  second : Fits (b.value * price.value)
  worth : ∀ x y, a.mul price = .ok x → b.mul price = .ok y → judged x y

theorem inRangeAt_iff {β : Type} {price a b : Decimal} {judged : Decimal → Decimal → Prop}
    {f : Decimal → Decimal → Checked β} (h : ∀ x y, (∃ r, f x y = .ok r) ↔ judged x y) :
    (∃ r, (do f (← a.mul price) (← b.mul price)) = .ok r) ↔ InRangeAt price a b judged := by
  rw [exists_bind_eq_ok_iff]
  constructor
  · rintro ⟨x, hx, hrest⟩
    obtain ⟨y, hy, hf⟩ := exists_bind_eq_ok_iff.1 hrest
    refine ⟨Decimal.exists_mul_iff.1 ⟨x, hx⟩, Decimal.exists_mul_iff.1 ⟨y, hy⟩, ?_⟩
    intro x' y' hx' hy'
    obtain rfl : x = x' := Except.ok.inj (hx.symm.trans hx')
    obtain rfl : y = y' := Except.ok.inj (hy.symm.trans hy')
    exact (h x y).1 hf
  · intro hrange
    obtain ⟨x, hx⟩ := Decimal.exists_mul_iff.2 hrange.first
    obtain ⟨y, hy⟩ := Decimal.exists_mul_iff.2 hrange.second
    have hf := (h x y).2 (hrange.worth x y hx hy)
    exact ⟨x, hx, exists_bind_eq_ok_iff.2 ⟨y, hy, hf⟩⟩

/-! ## 4. Orders -/

/-- The price at which the filled quantities of two orders are valued. -/
def statusPrice (e x : Order) : Decimal := (x.referencePrice.or e.referencePrice).getD .one

/-- `StatusInRange t e x`: it can be told how bad it is that two orders differ in status. -/
def StatusInRange (t : Tolerances) (e x : Order) : Prop :=
  InRangeAt (statusPrice e x) e.filledQuantity x.filledQuantity fun en xn =>
    Fits (xn.value - en.value) ∧ Fits (t.relative.value * en.value)

theorem exists_statusSeverity_iff {e x : Order} :
    (∃ v, statusSeverity t e x = .ok v) ↔ StatusInRange t e x := by
  refine inRangeAt_iff fun en xn => ?_
  rw [exists_bind_pure_iff, Tolerances.exists_within_iff]

theorem exists_compareOrder_some_iff {e x : Order} :
    (∃ o, compareOrder t (some (some e)) (some (some x)) = .ok o) ↔
      (e.status ≠ x.status → StatusInRange t e x) := by
  simp only [compareOrder]
  by_cases hstatus : e.status = x.status
  · rw [if_pos hstatus]
    exact iff_of_true ⟨none, rfl⟩ fun hne => absurd hstatus hne
  · rw [if_neg hstatus, forall_prop_of_true hstatus, exists_bind_pure_iff,
      exists_statusSeverity_iff]

theorem exists_compareOrder_iff {e x : Option (Option Order)} :
    (∃ o, compareOrder t e x = .ok o) ↔
      ∀ e' x', e = some (some e') → x = some (some x') → e'.status ≠ x'.status →
        StatusInRange t e' x' := by
  rcases e with _ | _ | e
  · exact iff_of_true (by rcases x with _ | _ | x <;> exact ⟨_, rfl⟩) fun _ _ he => nomatch he
  · exact iff_of_true ⟨none, rfl⟩ fun _ _ he => nomatch he
  rcases x with _ | _ | x
  · exact iff_of_true ⟨_, rfl⟩ fun _ _ _ hx => nomatch hx
  · exact iff_of_true ⟨none, rfl⟩ fun _ _ _ hx => nomatch hx
  · rw [exists_compareOrder_some_iff]
    constructor
    · rintro h _ _ ⟨⟩ ⟨⟩
      exact h
    · intro h
      exact h e x rfl rfl

/-- Wherever each side has one order under an id, both sound but in different statuses, it can be
told how bad that is. -/
def OrdersInRange (t : Tolerances) (expected actual : List Order) : Prop :=
  ∀ id e x, expected.filter (·.id = id) = [e] → actual.filter (·.id = id) = [x] → e.Credible →
    x.Credible → e.status ≠ x.status → StatusInRange t e x

theorem exists_compareOrders_iff {expected actual : List Order} :
    (∃ l, compareOrders t expected actual = .ok l) ↔ OrdersInRange t expected actual := by
  have hmatched : (∃ l, gather (fun id => compareOrder t ((indexOrders expected).records.get? id)
        ((indexOrders actual).records.get? id))
      (unionKeys (indexOrders expected).records (indexOrders actual).records) = .ok l) ↔
        OrdersInRange t expected actual := by
    rw [exists_gather_unionKeys_iff fun id he hx => by rw [he, hx]; exact ⟨none, rfl⟩]
    refine forall_congr' fun id => ?_
    rw [exists_compareOrder_iff]
    refine forall_congr' fun e => forall_congr' fun x => ?_
    rw [indexOrders, Index.get?_ofList_eq_valid_iff, indexOrders, Index.get?_ofList_eq_valid_iff,
      orderProblem_eq_none_iff, orderProblem_eq_none_iff]
    constructor
    · intro h he hx hce hcx
      exact h ⟨he, hce⟩ ⟨hx, hcx⟩
    · rintro h ⟨he, hce⟩ ⟨hx, hcx⟩
      exact h he hx hce hcx
  rw [← hmatched, compareOrders, exists_bind_pure_iff]

/-! ## 5. Positions -/

/-- `ExposureInRange t e x`: two positions, either of which may be missing, can be valued and
their values judged. -/
def ExposureInRange (t : Tolerances) (e x : Option Position) : Prop :=
  InRangeAt (sharedPrice e x) (exposure e) (exposure x) t.Judges

theorem exists_compareExposure_iff {s : Symbol} {e x : Option Position} :
    (∃ o, compareExposure t s e x = .ok o) ↔ ExposureInRange t e x :=
  inRangeAt_iff fun _ _ => Tolerances.judges_iff

/-- What nobody holds can be judged. -/
theorem exposureInRange_none : ExposureInRange t none none := by
  have hfits : Fits (0 : Rat) := Decimal.fits_of_le (by simp)
  refine ⟨?_, ?_, ?_⟩
  · rw [exposure, Option.map_none, Option.getD_none, Decimal.value_zero, zero_mul]
    exact hfits
  · rw [exposure, Option.map_none, Option.getD_none, Decimal.value_zero, zero_mul]
    exact hfits
  · rintro en xn ⟨⟩ ⟨⟩
    refine ⟨?_, ?_, fun _ => nofun⟩
    · rw [sub_self]
      exact hfits
    · rw [Decimal.value_zero, mul_zero]
      exact hfits

theorem exists_comparePosition_iff {s : Symbol} {e x : Option (Option Position)} :
    (∃ o, comparePosition t s e x = .ok o) ↔
      ∀ e' x', e = e'.map some → x = x'.map some → ExposureInRange t e' x' := by
  have hcompared : ∀ e' x' : Option Position,
      (∃ o, comparePosition t s (e'.map some) (x'.map some) = .ok o) ↔
        ExposureInRange t e' x' := by
    intro e' x'
    rw [← exists_compareExposure_iff]
    cases e' <;> cases x' <;> exact Iff.rfl
  have hnone : ∀ o : Option Position, some none ≠ o.map some := by
    rintro (_ | p) ⟨⟩
  have hsplit : ∀ o : Option (Option Position), o = some none ∨ ∃ p : Option Position,
      o = p.map some := by
    rintro (_ | _ | p)
    · exact .inr ⟨none, rfl⟩
    · exact .inl rfl
    · exact .inr ⟨some p, rfl⟩
  have hinj : ∀ p q : Option Position, p.map some = q.map some → p = q := fun p q h =>
    Option.map_injective (Option.some_injective _) h
  rcases hsplit e with rfl | ⟨e, rfl⟩
  · exact iff_of_true ⟨none, rfl⟩ fun e' _ he => absurd he (hnone e')
  rcases hsplit x with rfl | ⟨x, rfl⟩
  · refine iff_of_true ⟨none, ?_⟩ fun _ x' _ hx => absurd hx (hnone x')
    cases e <;> rfl
  · rw [hcompared]
    constructor
    · intro h e' x' he hx
      rwa [← hinj e e' he, ← hinj x x' hx]
    · intro h
      exact h e x rfl rfl

/-- Wherever each side has at most one position in a symbol, both sound, they can be valued and
their values judged. -/
def PositionsInRange (t : Tolerances) (expected actual : List Position) : Prop :=
  ∀ s e x, expected.filter (·.symbol = s) = e.toList → actual.filter (·.symbol = s) = x.toList →
    (∀ p ∈ e, p.Credible) → (∀ p ∈ x, p.Credible) → ExposureInRange t e x

theorem exists_comparePositions_iff {expected actual : List Position} :
    (∃ l, comparePositions t expected actual = .ok l) ↔ PositionsInRange t expected actual := by
  have hmatched : (∃ l, gather (fun s => comparePosition t s
        ((indexPositions expected).records.get? s) ((indexPositions actual).records.get? s))
      (unionKeys (indexPositions expected).records (indexPositions actual).records) = .ok l) ↔
        PositionsInRange t expected actual := by
    rw [exists_gather_unionKeys_iff fun s he hx => by
      rw [he, hx]; exact exists_compareExposure_iff.2 exposureInRange_none]
    refine forall_congr' fun s => ?_
    rw [exists_comparePosition_iff]
    refine forall_congr' fun e => forall_congr' fun x => ?_
    rw [indexPositions, Index.get?_ofList_eq_map_some_iff, indexPositions,
      Index.get?_ofList_eq_map_some_iff]
    simp only [positionProblem_eq_none_iff]
    constructor
    · intro h he hx hce hcx
      exact h ⟨he, hce⟩ ⟨hx, hcx⟩
    · rintro h ⟨he, hce⟩ ⟨hx, hcx⟩
      exact h he hx hce hcx
  rw [← hmatched, comparePositions, exists_bind_pure_iff]

/-! ## 6. The whole comparison -/

/-- What both sides say of a category is in range. -/
def CategoryInRange (t : Tolerances) (s : ExchangeSnapshot) (x : ExpectedState) : Category → Prop
  | .balances => BalancesInRange t x.balances s.balances
  | .orders => OrdersInRange t x.orders s.openOrders
  | .positions => PositionsInRange t x.positions s.positions

/-- `InRange t s x`: every number is in range that the comparison of a snapshot with what is
expected of its exchange computes.  Categories that were not collected are not compared. -/
def InRange (t : Tolerances) (s : ExchangeSnapshot) (x : ExpectedState) : Prop :=
  ∀ c, s.isDegraded c = false → CategoryInRange t s x c

theorem exists_compareCategory_iff {s : ExchangeSnapshot} {x : ExpectedState} {c : Category} :
    (∃ l, compareCategory t x s c = .ok l) ↔
      (s.isDegraded c = false → CategoryInRange t s x c) := by
  unfold compareCategory
  cases hdegraded : s.isDegraded c with
  | true => exact iff_of_true ⟨[.detectionSkipped c], rfl⟩ fun hfalse => by cases hfalse
  | false =>
    rw [if_neg Bool.false_ne_true, forall_prop_of_true rfl]
    cases c with
    | balances => exact exists_compareBalances_iff
    | orders => exact exists_compareOrders_iff
    | positions => exact exists_comparePositions_iff

theorem exists_detect_iff {s : ExchangeSnapshot} {x : ExpectedState} :
    (∃ l, detect t s x = .ok l) ↔ InRange t s x := by
  have hcategories : (∀ c, ∃ l, compareCategory t x s c = .ok l) ↔ InRange t s x :=
    forall_congr' fun c => exists_compareCategory_iff
  rw [← hcategories]
  cases husable : s.isUsable with
  | true =>
    constructor
    · rintro ⟨l, h⟩ c
      rcases detect_cases h with ⟨hunusable, -⟩ | ⟨-, b, o, p, hb, ho, hp, -⟩
      · rw [husable] at hunusable
        cases hunusable
      · cases c with
        | balances => exact ⟨b, hb⟩
        | orders => exact ⟨o, ho⟩
        | positions => exact ⟨p, hp⟩
    · intro h
      obtain ⟨b, hb⟩ := h .balances
      obtain ⟨o, ho⟩ := h .orders
      obtain ⟨p, hp⟩ := h .positions
      refine ⟨(connectivity s).toList ++ b ++ o ++ p, ?_⟩
      rw [detect, husable, if_pos rfl, hb, ho, hp]
      rfl
  | false =>
    -- Nothing of the snapshot is compared, so there is nothing to overflow.
    have hdegraded : ∀ c, s.isDegraded c = true := by
      intro c
      have hall := List.any_eq_false.1 husable c c.mem_all
      simpa using hall
    refine iff_of_true ⟨(connectivity s).toList, ?_⟩ fun c => ?_
    · rw [detect, husable]
      rfl
    · exact ⟨[.detectionSkipped c], if_pos (hdegraded c)⟩

end Detection

namespace ExchangeSnapshot

theorem exists_compareWithLedger_iff {s : ExchangeSnapshot} {t : Tolerances}
    {ledger : LedgerSnapshot} : (∃ ds, s.compareWithLedger t ledger = .ok ds) ↔
      ∃ findings, Detection.detect t s (ledger.expected s.exchange) = .ok findings := by
  rw [compareWithLedger, exists_bind_pure_iff]

/-- **A comparison comes out exactly if all its numbers are in range.**  Nothing else stops it:
no divisor is zero, whatever the tolerances. -/
theorem compareWithLedger_returns_iff (s : ExchangeSnapshot) (t : Tolerances)
    (ledger : LedgerSnapshot) : (∃ ds, s.compareWithLedger t ledger = .ok ds) ↔
      Detection.InRange t s (ledger.expected s.exchange) :=
  exists_compareWithLedger_iff.trans Detection.exists_detect_iff

/-- A balance whose parts cannot be added up takes what is found in another one with it. -/
theorem compareWithLedger_overflow :
    let most : Decimal := ⟨Decimal.maxCoefficient, 0, by decide, by decide⟩
    let two : Decimal := ⟨2, 0, by decide, by decide⟩
    let ether : SortedMap AssetId Balance := .insert .empty (.of .asset "ETH") (.ofFree .one)
    let extreme : Balance := { total := most, free := most, locked := .one }
    let s : ExchangeSnapshot := { new (.of .exchange "paper") default with balances := ether }
    let ledger : LedgerSnapshot := ⟨default, 1, default, .insert .empty s.exchange
      ⟨.insert .empty (.of .asset "ETH") (.ofFree two), [], []⟩⟩
    Tolerances.standard.validate = .ok () ∧
      Detection.detect .standard s (ledger.expected s.exchange) =
        .ok [.balanceMismatch (.of .asset "ETH") .critical two .one (-.one)] ∧
      { s with balances := ether.insert (.of .asset "BTC") extreme }.compareWithLedger
        .standard ledger = .error .addition := by
  refine ⟨rfl, ?_, ?_⟩
  · decide +kernel
  · decide +kernel

end ExchangeSnapshot

end Reconciliation
