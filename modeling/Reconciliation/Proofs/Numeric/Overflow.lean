/-
# When decimal arithmetic overflows

A result is rounded to as many places as the coefficient has room for, so an operation fails only
if not even the integer nearest to its exact result fits into 96 bits.  How many places the
operands have does not matter to that.

* `Fits`: the exact results that can be rounded to a decimal;
* `exists_nearest?_iff`: the rounding succeeds exactly on those;
* `exists_add_iff`, `exists_sub_iff`, `exists_mul_iff`, `exists_div_iff`: so do the operations.
-/
import Mathlib.Algebra.Order.Field.Rat
import Mathlib.Tactic.Linarith
import Mathlib.Tactic.Positivity
import Mathlib.Tactic.Ring
import Reconciliation.Proofs.Numeric.Decimal

namespace Reconciliation

/-! ## 1. Rounding to a bounded integer -/

/-- The integer nearest to a quotient is at most an odd bound if the quotient is less than half a
unit above it: at just half a unit, it is rounded to the even integer after the bound. -/
theorem roundHalfEven_le_iff {num den m : Nat} (hden : 0 < den) (hm : m % 2 = 1) :
    roundHalfEven num den ≤ m ↔ 2 * num < (2 * m + 1) * den := by
  have hnum : den * (num / den) + num % den = num := Nat.div_add_mod num den
  have hrest : num % den < den := Nat.mod_lt _ hden
  have hbound : (2 * m + 1) * den = 2 * (den * m) + den := by ring
  rw [hbound, roundHalfEven]
  generalize num / den = q at *
  generalize num % den = r at *
  rcases Nat.lt_trichotomy q m with hlt | rfl | hgt
  · have hmul : den * (q + 1) ≤ den * m := Nat.mul_le_mul_left den hlt
    rw [Nat.mul_add, Nat.mul_one] at hmul
    refine iff_of_true ?_ (by omega)
    split
    · omega
    · split <;> omega
  · split
    · omega
    · split <;> omega
  · have hmul : den * (m + 1) ≤ den * q := Nat.mul_le_mul_left den hgt
    rw [Nat.mul_add, Nat.mul_one] at hmul
    refine iff_of_false ?_ (by omega)
    split
    · omega
    · split <;> omega

namespace Decimal

-- Powers are those of the core library, whatever other instances are in scope.
attribute [local instance (2000)] instPowNat

variable {a b : Decimal}

/-! ## 2. Results that fit -/

/-- `Fits q`: the integer nearest to `q` has a coefficient of 96 bits. -/
def Fits (q : Rat) : Prop := 2 * |q| < 2 * maxCoefficient + 1

theorem fits_abs {q : Rat} : Fits |q| ↔ Fits q := by
  rw [Fits, Fits, abs_abs]

theorem fits_of_le {q : Rat} (h : |q| ≤ maxCoefficient) : Fits q := by
  unfold Fits
  linarith

theorem fits_div_iff {num : Int} {den : Nat} (hden : 0 < den) :
    Fits ((num : Rat) / den) ↔ 2 * num.natAbs < (2 * maxCoefficient + 1) * den := by
  have hpos : (0 : Rat) < den := by exact_mod_cast hden
  have habs : |(num : Rat) / den| = (num.natAbs : Rat) / den := by
    rw [abs_div, abs_of_pos hpos, ← Int.cast_abs, Int.abs_eq_natAbs, Int.cast_natCast]
  rw [Fits, habs, ← mul_div_assoc, div_lt_iff₀ hpos]
  exact_mod_cast Iff.rfl

/-- **Rounding succeeds exactly on what fits**: further places only take room. -/
theorem exists_nearest?_iff {num : Int} {den scale : Nat} (hden : 0 < den) :
    (∃ d, nearest? num den scale = some d) ↔ Fits ((num : Rat) / den) := by
  have hat : ∀ s, atScale? num den s ≠ none ↔
      2 * (num.natAbs * 10 ^ s) < (2 * maxCoefficient + 1) * den ∧ s ≤ maxScale := by
    intro s
    rw [Ne, atScale?_eq_none_iff, not_or, Nat.not_lt, Nat.not_lt,
      roundHalfEven_le_iff hden (by decide)]
  rw [fits_div_iff hden, ← Option.ne_none_iff_exists', Ne, nearest?_eq_none_iff]
  constructor
  · intro h
    obtain ⟨s, hs⟩ := not_forall.1 h
    obtain ⟨hfits, -⟩ := (hat s).1 fun hnone => hs fun _ => hnone
    have hmore : num.natAbs * 1 ≤ num.natAbs * 10 ^ s :=
      Nat.mul_le_mul_left _ (Nat.pow_pos (by decide))
    omega
  · intro h hnone
    refine (hat 0).2 ⟨?_, Nat.zero_le _⟩ (hnone 0 (Nat.zero_le _))
    rwa [Nat.pow_zero, Nat.mul_one]

/-! ## 3. Values -/

theorem value_neg (a : Decimal) : (-a).value = -a.value := by
  rw [value, value, coefficient_neg, scale_neg, Int.cast_neg, neg_div]

theorem value_abs (a : Decimal) : a.abs.value = |a.value| := by
  have hpos := a.pow_scale_pos
  rw [value, value, abs_div, abs_of_pos hpos, ← Int.cast_abs, Int.abs_eq_natAbs]
  rfl

theorem value_max (a b : Decimal) : (a.max b).value = Max.max a.value b.value := by
  unfold max
  split
  · rename_i h
    exact (max_eq_right (le_of_lt (lt_iff_value_lt.1 h))).symm
  · rename_i h
    exact (max_eq_left (not_lt.1 (mt lt_iff_value_lt.2 h))).symm

theorem value_eq_zero_iff : a.value = 0 ↔ a.isZero = true := by
  rw [value, div_eq_zero_iff, or_iff_left (ne_of_gt a.pow_scale_pos), Int.cast_eq_zero, isZero_iff]

@[simp] theorem value_zero : zero.value = 0 := value_eq_zero_iff.2 rfl

theorem abs_value_pos_iff : 0 < |a.value| ↔ a.isZero = false := by
  rw [abs_pos, Ne, value_eq_zero_iff, Bool.not_eq_true]

theorem abs_value_le (a : Decimal) : |a.value| ≤ maxCoefficient := by
  have hone : (1 : Rat) ≤ (10 ^ a.scale : Nat) := by
    exact_mod_cast Nat.pow_pos (by decide)
  rw [value, abs_div, abs_of_pos a.pow_scale_pos, ← Int.cast_abs, Int.abs_eq_natAbs]
  refine (div_le_self (by positivity) hone).trans ?_
  exact_mod_cast a.coefficient_le

theorem value_nonneg_iff : 0 ≤ a.value ↔ zero ≤ a := by
  rw [le_iff_value_le, value_zero]

theorem fits_value (a : Decimal) : Fits a.value := fits_of_le a.abs_value_le

/-- The difference of two amounts that are not negative is not larger than they are. -/
theorem fits_sub_of_nonneg (ha : zero ≤ a) (hb : zero ≤ b) : Fits (a.value - b.value) := by
  have ha' := value_nonneg_iff.2 ha
  have hb' := value_nonneg_iff.2 hb
  have hamax := a.abs_value_le
  have hbmax := b.abs_value_le
  rw [abs_of_nonneg ha'] at hamax
  rw [abs_of_nonneg hb'] at hbmax
  refine fits_of_le (abs_le.2 ⟨?_, ?_⟩)
  · linarith
  · linarith

/-- The value over a common power of ten. -/
theorem value_eq_of_scale_le {scale : Nat} (h : a.scale ≤ scale) :
    a.value = ((a.coefficient * (10 ^ (scale - a.scale) : Nat) : Int) : Rat) /
      (10 ^ scale : Nat) := by
  have hne : ((10 ^ (scale - a.scale) : Nat) : Rat) ≠ 0 := by
    exact_mod_cast Nat.ne_of_gt (Nat.pow_pos (by decide))
  have hpow : ((10 ^ scale : Nat) : Rat) =
      (10 ^ a.scale : Nat) * (10 ^ (scale - a.scale) : Nat) := by
    rw [← Nat.cast_mul, Nat.mul_comm, Nat.pow_sub_mul_pow 10 h]
  rw [value, Int.cast_mul, Int.cast_natCast, hpow, mul_div_mul_right _ _ hne]

/-! ## 4. Operations -/

theorem rounded_eq_ok_iff {x : Option Decimal} {o : Overflow} {c : Decimal} :
    (x.map .ok).getD (.error o) = (.ok c : Except Overflow Decimal) ↔ x = some c := by
  cases x with
  | none => simp
  | some d => simp

theorem exists_rounded_iff {x : Option Decimal} {o : Overflow} :
    (∃ c, (x.map .ok).getD (.error o) = (.ok c : Except Overflow Decimal)) ↔ ∃ d, x = some d :=
  exists_congr fun _ => rounded_eq_ok_iff

/-- A sum over the larger number of places. -/
theorem value_add_value (a b : Decimal) : a.value + b.value =
    ((a.coefficient * (10 ^ (a.scale.max b.scale - a.scale) : Nat) +
      b.coefficient * (10 ^ (a.scale.max b.scale - b.scale) : Nat) : Int) : Rat) /
        (10 ^ a.scale.max b.scale : Nat) := by
  rw [value_eq_of_scale_le (Nat.le_max_left a.scale b.scale),
    value_eq_of_scale_le (Nat.le_max_right a.scale b.scale), Int.cast_add, add_div]

/-- **A sum fails only by its size.** -/
theorem exists_add_iff : (∃ c, a.add b = .ok c) ↔ Fits (a.value + b.value) := by
  unfold add
  cases ha : a.isZero with
  | true =>
    rw [value_eq_zero_iff.2 ha, zero_add]
    exact iff_of_true ⟨b, rfl⟩ b.fits_value
  | false =>
    cases hb : b.isZero with
    | true =>
      rw [value_eq_zero_iff.2 hb, add_zero]
      exact iff_of_true ⟨a, rfl⟩ a.fits_value
    | false =>
      rw [value_add_value]
      exact exists_rounded_iff.trans (exists_nearest?_iff (Nat.pow_pos (by decide)))

/-- **A difference fails only by its size.** -/
theorem exists_sub_iff : (∃ c, a.sub b = .ok c) ↔ Fits (a.value - b.value) := by
  rw [sub_eq_add_neg, ← value_neg, ← exists_add_iff]
  exact exists_congr fun c => mapError_eq_ok_iff

theorem value_mul_value (a b : Decimal) : a.value * b.value =
    ((a.coefficient * b.coefficient : Int) : Rat) / (10 ^ (a.scale + b.scale) : Nat) := by
  rw [value, value, div_mul_div_comm, Int.cast_mul, Nat.pow_add, Nat.cast_mul]

/-- **A product fails only by its size.** -/
theorem exists_mul_iff : (∃ c, a.mul b = .ok c) ↔ Fits (a.value * b.value) := by
  unfold mul
  dsimp only
  split
  · rename_i hzero
    refine iff_of_true ⟨zero, rfl⟩ ?_
    have hvalue : a.value * b.value = 0 := by
      rw [mul_eq_zero, value_eq_zero_iff, value_eq_zero_iff]
      simpa using hzero
    rw [hvalue]
    exact fits_of_le (by simp)
  · split
    · rename_i hshort
      simp only [Bool.and_eq_true, decide_eq_true_eq] at hshort
      refine iff_of_true ⟨zero, rfl⟩ ?_
      rw [value_mul_value, fits_div_iff (Nat.pow_pos (by decide)), Int.natAbs_mul]
      have hproduct : a.coefficient.natAbs * b.coefficient.natAbs ≤
          shortWordCount * shortWordCount :=
        Nat.mul_le_mul (Nat.le_of_lt hshort.1.1) (Nat.le_of_lt hshort.1.2)
      have hone : (2 * maxCoefficient + 1) * 1 ≤
          (2 * maxCoefficient + 1) * 10 ^ (a.scale + b.scale) :=
        Nat.mul_le_mul_left _ (Nat.pow_pos (by decide))
      have hbound : 2 * (shortWordCount * shortWordCount) < 2 * maxCoefficient + 1 := by decide
      omega
    · rw [value_mul_value]
      exact exists_rounded_iff.trans (exists_nearest?_iff (Nat.pow_pos (by decide)))

theorem coefficient_ne_zero (h : a.isZero = false) : a.coefficient ≠ 0 := by
  rw [Ne, ← isZero_iff, h]
  exact Bool.false_ne_true

theorem value_div_value (a : Decimal) (hb : b.isZero = false) : a.value / b.value =
    ((a.coefficient * b.coefficient.sign * (10 ^ b.scale : Nat) : Int) : Rat) /
      (b.coefficient.natAbs * 10 ^ a.scale : Nat) := by
  have habs : ((b.coefficient.natAbs : Nat) : Rat) = b.coefficient.sign * b.coefficient := by
    rw [← Int.cast_natCast, ← Int.sign_mul_self_eq_natAbs, Int.cast_mul]
  have hsign : ((b.coefficient.sign : Int) : Rat) ≠ 0 := by
    exact_mod_cast mt Int.sign_eq_zero_iff_zero.1 (coefficient_ne_zero hb)
  rw [value, value, div_div_div_eq, Nat.cast_mul, habs, Int.cast_mul, Int.cast_mul,
    Int.cast_natCast, mul_assoc (b.coefficient.sign : Rat), mul_right_comm,
    mul_comm _ (b.coefficient.sign : Rat), mul_div_mul_left _ _ hsign,
    mul_comm (b.coefficient : Rat)]

/-- The divisor of the coefficients. -/
theorem divisor_pos (a : Decimal) (hb : b.isZero = false) :
    0 < b.coefficient.natAbs * 10 ^ a.scale :=
  Nat.mul_pos (Int.natAbs_pos.2 (coefficient_ne_zero hb)) (Nat.pow_pos (by decide))

/-- **A quotient fails only by its size**, if the divisor is not zero. -/
theorem exists_div_iff (hb : b.isZero = false) :
    (∃ c, a.div b = .ok c) ↔ Fits (a.value / b.value) := by
  unfold div
  rw [hb]
  cases ha : a.isZero with
  | true =>
    rw [value_eq_zero_iff.2 ha, zero_div]
    exact iff_of_true ⟨zero, rfl⟩ (fits_of_le (by simp))
  | false =>
    rw [value_div_value a hb]
    exact exists_rounded_iff.trans (exists_nearest?_iff (divisor_pos a hb))

end Decimal

end Reconciliation
