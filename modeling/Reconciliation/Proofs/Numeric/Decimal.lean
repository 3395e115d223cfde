/-
# Signs and equal values of decimals

The sign of a decimal is the sign of its coefficient, whatever its places, and the operations
treat it as one expects.  Two decimals of one value differ by a zero, however many places the
zero has.

* `zero_le_iff`, `zero_lt_iff`: signs by the coefficient;
* `add_nonneg`: rounding makes no sum negative;
* `sub_of_same`: the difference of equal values comes out, and is zero.
-/
import Reconciliation.Numeric.Decimal.Arithmetic
import Reconciliation.Proofs.Checked

namespace Reconciliation
namespace Decimal

-- Powers are those of the core library, whatever other instances are in scope.
attribute [local instance (2000)] instPowNat

/-! ## 1. Signs -/

theorem pow_scale_pos_int (d : Decimal) : (0 : Int) < (10 ^ d.scale : Nat) :=
  Int.natCast_pos.2 (Nat.pow_pos (by decide))

theorem lt_iff {a b : Decimal} :
    a < b ↔ a.coefficient * (10 ^ b.scale : Nat) < b.coefficient * (10 ^ a.scale : Nat) := Iff.rfl

theorem le_iff {a b : Decimal} :
    a ≤ b ↔ a.coefficient * (10 ^ b.scale : Nat) ≤ b.coefficient * (10 ^ a.scale : Nat) := Iff.rfl

theorem zero_le_iff {d : Decimal} : zero ≤ d ↔ 0 ≤ d.coefficient := by
  rw [le_iff, zero, Int.zero_mul, Nat.pow_zero, Int.natCast_one, Int.mul_one]

theorem zero_lt_iff {d : Decimal} : zero < d ↔ 0 < d.coefficient := by
  rw [lt_iff, zero, Int.zero_mul, Nat.pow_zero, Int.natCast_one, Int.mul_one]

theorem lt_zero_iff {d : Decimal} : d < zero ↔ d.coefficient < 0 := by
  rw [lt_iff, zero, Int.zero_mul, Nat.pow_zero, Int.natCast_one, Int.mul_one]

theorem isZero_iff {d : Decimal} : d.isZero = true ↔ d.coefficient = 0 := beq_iff_eq

theorem isNegative_eq_false_iff {d : Decimal} : d.isNegative = false ↔ zero ≤ d := by
  rw [zero_le_iff, isNegative, decide_eq_false_iff_not, Int.not_lt]

@[simp] theorem coefficient_neg (d : Decimal) : (-d).coefficient = -d.coefficient := rfl

@[simp] theorem coefficient_abs (d : Decimal) : d.abs.coefficient = d.coefficient.natAbs := rfl

@[simp] theorem scale_neg (d : Decimal) : (-d).scale = d.scale := rfl

@[simp] theorem isZero_neg (d : Decimal) : (-d).isZero = d.isZero := by
  rw [Bool.eq_iff_iff, isZero_iff, isZero_iff, coefficient_neg]
  omega

/-- What is zero is at most what is not negative. -/
theorem le_of_isZero {a b : Decimal} (ha : a.isZero = true) (hb : zero ≤ b) : a ≤ b := by
  rw [le_iff, isZero_iff.1 ha, Int.zero_mul]
  exact Int.mul_nonneg (zero_le_iff.1 hb) (Int.le_of_lt a.pow_scale_pos_int)

@[simp] theorem isZero_abs (d : Decimal) : d.abs.isZero = d.isZero := by
  rw [Bool.eq_iff_iff, isZero_iff, isZero_iff, coefficient_abs]
  omega

theorem zero_le_max {a b : Decimal} (h : zero ≤ a) : zero ≤ a.max b := by
  unfold max
  split
  · rename_i hlt
    rw [zero_le_iff] at h ⊢
    have hpos := Int.lt_of_le_of_lt (Int.mul_nonneg h (Int.le_of_lt b.pow_scale_pos_int)) hlt
    exact Int.le_of_lt (Int.pos_of_mul_pos_left hpos a.pow_scale_pos_int)
  · exact h

/-! ## 2. Equal values -/

theorem Same.refl (a : Decimal) : Same a a := rfl

theorem Same.symm {a b : Decimal} (h : Same a b) : Same b a := Eq.symm h

theorem Same.isZero_eq {a b : Decimal} (h : Same a b) : a.isZero = b.isZero := by
  have ha := a.pow_scale_pos_int
  have hb := b.pow_scale_pos_int
  rw [Bool.eq_iff_iff, isZero_iff, isZero_iff]
  unfold Same at h
  constructor
  · intro h0
    rw [h0, Int.zero_mul] at h
    exact (Int.mul_eq_zero.1 h.symm).resolve_right (by omega)
  · intro h0
    rw [h0, Int.zero_mul] at h
    exact (Int.mul_eq_zero.1 h).resolve_right (by omega)

theorem zero_le_of_same {a b : Decimal} (h : Same a b) (hb : zero ≤ b) : zero ≤ a := by
  rw [le_iff_value_le] at hb ⊢
  rw [same_iff_value_eq.1 h]
  exact hb

/-- Over a common power of ten, equal values have one coefficient. -/
theorem Same.rescale {a b : Decimal} (h : Same a b) {scale : Nat} (ha : a.scale ≤ scale)
    (hb : b.scale ≤ scale) :
    a.coefficient * (10 ^ (scale - a.scale) : Nat) =
      b.coefficient * (10 ^ (scale - b.scale) : Nat) := by
  have hpow : ∀ d : Decimal, d.scale ≤ scale →
      ((10 ^ (scale - d.scale) : Nat) : Int) * (10 ^ d.scale : Nat) = (10 ^ scale : Nat) := by
    intro d hd
    rw [← Int.natCast_mul, Nat.pow_sub_mul_pow 10 hd]
  have hne : ((10 ^ a.scale : Nat) : Int) * (10 ^ b.scale : Nat) ≠ 0 :=
    Int.mul_ne_zero (Int.ne_of_gt a.pow_scale_pos_int) (Int.ne_of_gt b.pow_scale_pos_int)
  refine Int.eq_of_mul_eq_mul_right hne ?_
  calc a.coefficient * (10 ^ (scale - a.scale) : Nat) *
          ((10 ^ a.scale : Nat) * (10 ^ b.scale : Nat))
      = a.coefficient * (10 ^ b.scale : Nat) *
          ((10 ^ (scale - a.scale) : Nat) * (10 ^ a.scale : Nat)) := by ac_rfl
    _ = b.coefficient * (10 ^ a.scale : Nat) *
          ((10 ^ (scale - b.scale) : Nat) * (10 ^ b.scale : Nat)) := by rw [hpow a ha, hpow b hb, h]
    _ = b.coefficient * (10 ^ (scale - b.scale) : Nat) *
          ((10 ^ a.scale : Nat) * (10 ^ b.scale : Nat)) := by ac_rfl

/-! ## 3. Sums and differences -/

theorem atScale?_nonneg {num : Int} {den scale : Nat} {d : Decimal} (hnum : 0 ≤ num)
    (h : atScale? num den scale = some d) : 0 ≤ d.coefficient := by
  simp only [atScale?, Option.dite_none_right_eq_some, Option.some.injEq] at h
  obtain ⟨_, rfl⟩ := h
  exact Int.mul_nonneg (Int.sign_nonneg_iff.2 hnum) (Int.natCast_nonneg _)

theorem nearest?_nonneg {num : Int} {den scale : Nat} {d : Decimal} (hnum : 0 ≤ num)
    (h : nearest? num den scale = some d) : 0 ≤ d.coefficient := by
  induction scale with
  | zero => exact atScale?_nonneg hnum h
  | succ scale ih =>
    rw [nearest?] at h
    split at h
    · rename_i d' hd
      cases h
      exact atScale?_nonneg hnum hd
    · exact ih h

/-- Nothing is lost of a zero. -/
theorem nearest?_zero {den scale : Nat} (hden : 0 < den) (hscale : scale ≤ maxScale) :
    ∃ d, nearest? 0 den scale = some d ∧ d.isZero = true := by
  have hround : roundHalfEven 0 den = 0 := by
    have := roundHalfEven_mul 0 den hden
    rwa [Nat.zero_mul] at this
  have hat : ∃ d, atScale? 0 den scale = some d ∧ d.isZero = true := by
    simp only [atScale?, Int.natAbs_zero, Nat.zero_mul, hround]
    rw [dif_pos ⟨Nat.zero_le _, hscale⟩]
    exact ⟨_, rfl, rfl⟩
  obtain ⟨d, hd, hzero⟩ := hat
  refine ⟨d, ?_, hzero⟩
  cases scale with
  | zero => exact hd
  | succ n => rw [nearest?, hd]

/-- The sum as an integer over a power of ten, before it is rounded. -/
theorem add_eq_ok_iff {a b c : Decimal} :
    a.add b = .ok c ↔
      (a.isZero = true ∧ b = c) ∨ (a.isZero = false ∧ b.isZero = true ∧ a = c) ∨
      (a.isZero = false ∧ b.isZero = false ∧
        nearest? (a.coefficient * (10 ^ (a.scale.max b.scale - a.scale) : Nat) +
            b.coefficient * (10 ^ (a.scale.max b.scale - b.scale) : Nat))
          (10 ^ a.scale.max b.scale) (a.scale.max b.scale) = some c) := by
  unfold add
  cases ha : a.isZero with
  | true => simp
  | false =>
    cases hb : b.isZero with
    | true => simp
    | false =>
      simp only [Bool.false_eq_true, if_false, false_and, true_and, false_or]
      cases nearest? _ _ _ <;> simp

/-- **A sum of amounts that are not negative is not negative.** -/
theorem add_nonneg {a b c : Decimal} (ha : zero ≤ a) (hb : zero ≤ b) (h : a.add b = .ok c) :
    zero ≤ c := by
  rcases add_eq_ok_iff.1 h with ⟨-, rfl⟩ | ⟨-, -, rfl⟩ | ⟨-, -, hnear⟩
  · exact hb
  · exact ha
  · rw [zero_le_iff] at ha hb ⊢
    refine nearest?_nonneg (Int.add_nonneg ?_ ?_) hnear
    · exact Int.mul_nonneg ha (Int.natCast_nonneg _)
    · exact Int.mul_nonneg hb (Int.natCast_nonneg _)

/-- **Equal values differ by zero**, and no difference of theirs overflows. -/
theorem sub_of_same {a b : Decimal} (h : Same a b) : ∃ d, a.sub b = .ok d ∧ d.isZero = true := by
  suffices hadd : ∃ d, a.add (-b) = .ok d ∧ d.isZero = true by
    obtain ⟨d, hd, hzero⟩ := hadd
    exact ⟨d, mapError_eq_ok_iff.2 hd, hzero⟩
  have hzero := h.isZero_eq
  cases hb : b.isZero with
  | true => exact ⟨-b, add_eq_ok_iff.2 (.inl ⟨hzero.trans hb, rfl⟩), by rw [isZero_neg, hb]⟩
  | false =>
    -- both are put over the larger number of places, where they cancel
    have hcancel : a.coefficient * (10 ^ (a.scale.max b.scale - a.scale) : Nat) +
        (-b).coefficient * (10 ^ (a.scale.max b.scale - b.scale) : Nat) = 0 := by
      rw [coefficient_neg, Int.neg_mul,
        h.rescale (Nat.le_max_left a.scale b.scale) (Nat.le_max_right a.scale b.scale)]
      exact Int.add_right_neg _
    have hden : 0 < 10 ^ a.scale.max b.scale := Nat.pow_pos (by decide)
    obtain ⟨d, hd, hdzero⟩ := nearest?_zero hden (Nat.max_le.2 ⟨a.scale_le, b.scale_le⟩)
    refine ⟨d, add_eq_ok_iff.2 (.inr (.inr ⟨hzero.trans hb, ?_, ?_⟩)), hdzero⟩
    · rw [isZero_neg, hb]
    · rw [scale_neg, hcancel]
      exact hd

end Decimal
end Reconciliation
