/-
# Rounding and tolerances

Whether two amounts count as equal is decided on a rounded difference and a rounded share of the
expected amount, and how bad a divergence is on a rounded quotient.  The results are rounded to
different grids, one of them up and the other one down.  But rounding is monotone, and the amounts
that tolerances are made of are not rounded, so it turns no comparison round: it can only make two
different results the same.  Equal results are within tolerance, and reach the critical ratio.  So
where a decision differs from that on the exact numbers, it is silent rather than alarming on what
is within tolerance, and critical rather than a warning.

* `Tolerances.rounds_allowance`: what is allowed is the exact allowance, rounded;
* `Tolerances.raises_no_false_alarm`: what is exactly within tolerance counts as equal;
* `Tolerances.downgrades_nothing_critical`: what is exactly critical is called so, and what is
  worse is called no better.
-/
import Reconciliation.Proofs.Compare.Overflow
import Reconciliation.Proofs.Numeric.Rounding

namespace Reconciliation
namespace Tolerances

open Decimal (Rounds)

variable {t : Tolerances} {expected actual delta : Decimal}

/-! ## 1. What counts as equal -/

/-- The allowance is the exact one, rounded. -/
theorem rounds_allowance {allowed : Decimal} (h : t.allowance expected = .ok allowed) :
    Rounds (max t.absolute.value (t.relative.value * |expected.value|)) allowed := by
  simp only [allowance, bind_eq_ok_iff, pure_eq_ok_iff] at h
  obtain ⟨share, hshare, rfl⟩ := h
  have hproduct := Decimal.rounds_mul hshare
  rw [Decimal.value_abs] at hproduct
  exact (Decimal.rounds_value t.absolute).max hproduct

theorem within_eq_ok_iff {w : Bool} : t.within expected actual = .ok w ↔
    ∃ divergence, actual.sub expected = .ok divergence ∧
      ∃ allowed, t.allowance expected = .ok allowed ∧
        decide (divergence.abs ≤ allowed) = w := by
  simp only [within, bind_eq_ok_iff, pure_eq_ok_iff]

/-- **Rounding never raises a false alarm.**  Where it can be told whether two amounts are within
tolerance, they are if their exact divergence is at most the exact allowance.  Otherwise they are
only if rounding makes the divergence and the allowance the same. -/
theorem raises_no_false_alarm {w : Bool} (h : t.within expected actual = .ok w) :
    w = true ↔
      |actual.value - expected.value| ≤
          max t.absolute.value (t.relative.value * |expected.value|) ∨
        ∃ divergence allowed, actual.sub expected = .ok divergence ∧
          t.allowance expected = .ok allowed ∧ divergence.abs.Same allowed := by
  obtain ⟨divergence, hdivergence, allowed, hallowed, rfl⟩ := within_eq_ok_iff.1 h
  have hrounds := (Decimal.rounds_sub hdivergence).abs
  rw [decide_eq_true_iff, Decimal.le_iff_value_le,
    hrounds.value_le_iff (rounds_allowance hallowed)]
  refine or_congr_right ?_
  constructor
  · intro hsame
    exact ⟨divergence, allowed, hdivergence, hallowed, Decimal.same_iff_value_eq.2 hsame⟩
  · rintro ⟨divergence', allowed', hdivergence', hallowed', hsame⟩
    obtain rfl : divergence = divergence' := Except.ok.inj (hdivergence.symm.trans hdivergence')
    obtain rfl : allowed = allowed' := Except.ok.inj (hallowed.symm.trans hallowed')
    exact Decimal.same_iff_value_eq.1 hsame

/-- The difference to four tenths is rounded to the expected amount itself, one above what is
allowed; the exact one is above it as well. -/
theorem raises_no_false_alarm_rounded_up :
    let expected : Decimal := ⟨79228162514264337593543950335, 0, by decide, by decide⟩
    let actual : Decimal := ⟨4, 1, by decide, by decide⟩
    let t : Tolerances :=
      ⟨⟨79228162514264337593543950334, 0, by decide, by decide⟩, .zero, .one⟩
    t.within expected actual = .ok false ∧
      ¬ |actual.value - expected.value| ≤
        max t.absolute.value (t.relative.value * |expected.value|) := by
  intro expected actual t
  have hwithin : t.within expected actual = .ok false := by decide +kernel
  refine ⟨hwithin, ?_⟩
  intro hle
  exact Bool.false_ne_true ((raises_no_false_alarm hwithin).2 (.inl hle))

/-! ## 2. What is critical -/

theorem severityFor_of_isZero (h : expected.isZero = true) :
    t.severityFor expected delta = .ok .critical := if_pos h

theorem severityFor_eq_ok_iff (h : expected.isZero = false) {v : Severity} :
    t.severityFor expected delta = .ok v ↔
      ∃ ratio, delta.abs.div expected.abs = .ok ratio ∧
        (if ratio < t.criticalRatio then .warning else .critical) = v := by
  simp only [severityFor, h, Bool.false_eq_true, if_false, bind_eq_ok_iff, pure_eq_ok_iff]

theorem severityFor_ne_info {v : Severity} (h : t.severityFor expected delta = .ok v) :
    v ≠ .info := by
  cases hzero : expected.isZero with
  | true =>
    rw [← Except.ok.inj ((severityFor_of_isZero hzero).symm.trans h)]
    decide
  | false =>
    obtain ⟨ratio, -, rfl⟩ := (severityFor_eq_ok_iff hzero).1 h
    split <;> decide

/-- The ratio of a divergence is the exact one, rounded. -/
theorem rounds_ratio {ratio : Decimal} (hzero : expected.isZero = false)
    (h : delta.abs.div expected.abs = .ok ratio) :
    Rounds (|delta.value| / |expected.value|) ratio := by
  have hratio := Decimal.rounds_div ((Decimal.isZero_abs expected).trans hzero) h
  rwa [Decimal.value_abs, Decimal.value_abs] at hratio

/-- The exact divergence decides what is critical, except where its ratio is rounded to the critical
one. -/
theorem eq_critical_iff {v : Severity} (h : t.severityFor expected delta = .ok v) :
    v = .critical ↔
      expected.value = 0 ∨ t.criticalRatio.value * |expected.value| ≤ |delta.value| ∨
        ∃ ratio, delta.abs.div expected.abs = .ok ratio ∧ ratio.Same t.criticalRatio := by
  cases hzero : expected.isZero with
  | true =>
    obtain rfl : Severity.critical = v := Except.ok.inj ((severityFor_of_isZero hzero).symm.trans h)
    exact iff_of_true rfl (.inl (Decimal.value_eq_zero_iff.2 hzero))
  | false =>
    have hpos : 0 < |expected.value| := Decimal.abs_value_pos_iff.2 hzero
    obtain ⟨ratio, hratio, rfl⟩ := (severityFor_eq_ok_iff hzero).1 h
    -- the critical ratio is not rounded, so only the rounding of the other one is in the way
    have hcritical : ¬ ratio < t.criticalRatio ↔
        t.criticalRatio.value * |expected.value| ≤ |delta.value| ∨
          t.criticalRatio.value = ratio.value := by
      rw [Decimal.lt_iff_value_lt, not_lt,
        (Decimal.rounds_value t.criticalRatio).value_le_iff (rounds_ratio hzero hratio),
        le_div_iff₀ hpos]
    rw [ite_eq_right_iff, or_iff_right (abs_pos.1 hpos), imp_iff_not (by decide), hcritical]
    refine or_congr_right ?_
    constructor
    · intro hsame
      exact ⟨ratio, hratio, Decimal.same_iff_value_eq.2 hsame.symm⟩
    · rintro ⟨ratio', hratio', hsame⟩
      obtain rfl : ratio = ratio' := Except.ok.inj (hratio.symm.trans hratio')
      exact (Decimal.same_iff_value_eq.1 hsame).symm

/-- A smaller divergence has a smaller quotient, which fits if the larger does, and is rounded to
no larger ratio. -/
theorem exists_severityFor_of_le {v : Severity} (h : t.severityFor expected delta = .ok v)
    {delta' : Decimal} (hle : |delta'.value| ≤ |delta.value|) :
    ∃ v', t.severityFor expected delta' = .ok v' ∧ v'.rank ≤ v.rank := by
  cases hzero : expected.isZero with
  | true =>
    obtain rfl : Severity.critical = v := Except.ok.inj ((severityFor_of_isZero hzero).symm.trans h)
    exact ⟨.critical, severityFor_of_isZero hzero, Nat.le_refl _⟩
  | false =>
    have hquotient : |delta'.value| / |expected.value| ≤ |delta.value| / |expected.value| :=
      div_le_div_of_nonneg_right hle (abs_nonneg _)
    have hfits : Decimal.Fits (delta.value / expected.value) :=
      exists_severityFor_iff.1 ⟨v, h⟩ hzero
    obtain ⟨v', hv'⟩ : ∃ v', t.severityFor expected delta' = .ok v' := by
      refine exists_severityFor_iff.2 fun _ => ?_
      unfold Decimal.Fits at hfits ⊢
      rw [abs_div] at hfits ⊢
      linarith
    refine ⟨v', hv', ?_⟩
    obtain ⟨ratio, hratio, rfl⟩ := (severityFor_eq_ok_iff hzero).1 h
    obtain ⟨ratio', hratio', rfl⟩ := (severityFor_eq_ok_iff hzero).1 hv'
    have hratios : ratio'.value ≤ ratio.value :=
      (rounds_ratio hzero hratio').value_le (rounds_ratio hzero hratio) hquotient
    split
    · split <;> decide
    · rename_i hnot
      have hnot' : ¬ ratio < t.criticalRatio := by
        rw [Decimal.lt_iff_value_lt, not_lt] at hnot ⊢
        exact hnot.trans hratios
      rw [if_neg hnot']

/-- **Rounding never downgrades a critical divergence.**  Where it can be told how bad a divergence
is, it is critical if nothing was expected or if the exact divergence reaches the critical share of
the expected amount, otherwise only if its ratio is rounded to the critical one; what is not
critical is a warning.  Of any smaller divergence it can be told as well, and it is no worse. -/
theorem downgrades_nothing_critical {v : Severity} (h : t.severityFor expected delta = .ok v) :
    (v = .critical ↔
      expected.value = 0 ∨ t.criticalRatio.value * |expected.value| ≤ |delta.value| ∨
        ∃ ratio, delta.abs.div expected.abs = .ok ratio ∧ ratio.Same t.criticalRatio) ∧
    (v = .warning ∨ v = .critical) ∧
    ∀ delta' : Decimal, |delta'.value| ≤ |delta.value| →
      ∃ v', t.severityFor expected delta' = .ok v' ∧ v'.rank ≤ v.rank := by
  refine ⟨eq_critical_iff h, ?_, fun _ hle => exists_severityFor_of_le h hle⟩
  cases v with
  | info => exact absurd rfl (severityFor_ne_info h)
  | warning => exact .inl rfl
  | critical => exact .inr rfl

/-- A third is rounded down, to less than a critical ratio in its 28th place above. -/
theorem downgrades_nothing_critical_third :
    let three : Decimal := ⟨3, 0, by decide, by decide⟩
    let t : Tolerances :=
      ⟨.zero, .zero, ⟨3333333333333333333333333334, 28, by decide, by decide⟩⟩
    t.severityFor three .one = .ok .warning ∧
      ¬ t.criticalRatio.value * |three.value| ≤ |Decimal.one.value| ∧
      ∀ delta' : Decimal, |delta'.value| ≤ |Decimal.one.value| →
        ∃ v', t.severityFor three delta' = .ok v' ∧ v'.rank ≤ Severity.warning.rank := by
  intro three t
  have hwarning : t.severityFor three .one = .ok .warning := by decide +kernel
  obtain ⟨hcritical, -, hsmaller⟩ := downgrades_nothing_critical hwarning
  refine ⟨hwarning, ?_, hsmaller⟩
  intro hle
  exact absurd (hcritical.2 (.inr (.inl hle))) (by decide)

end Tolerances

end Reconciliation
