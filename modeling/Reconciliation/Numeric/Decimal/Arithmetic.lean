/-
# Decimal arithmetic

Each operation takes the exact rational result and gives it as many decimal places as it needs,
at most 28, and as many as the coefficient's 96 bits allow; what is dropped is rounded to
nearest, halves to even.  A result too large without any decimal place is an `Overflow`, which
names the operation, so that a caller can refuse the record that caused it.

* `nearest?_eq_none_iff`: overflow means that not even the integer part fits.
-/
import Reconciliation.Numeric.Decimal
import Reconciliation.Numeric.Rounding
import Reconciliation.Numeric.Word

namespace Reconciliation
namespace Decimal

-- Powers are those of the core library, whatever other instances are in scope.
attribute [local instance (2000)] instPowNat

/-- An arithmetic result beyond 96 bits of coefficient. -/
abbrev Overflow := Reconciliation.Overflow

/-! ## 1. The nearest decimal of a quotient -/

/-- The decimal with `scale` places nearest to `num / den`, if it is one. -/
def atScale? (num : Int) (den scale : Nat) : Option Decimal :=
  let m := roundHalfEven (num.natAbs * 10 ^ scale) den
  if h : m ≤ maxCoefficient ∧ scale ≤ maxScale then
    some ⟨num.sign * m, scale, by
      refine Nat.le_trans ?_ h.1
      rw [Int.natAbs_mul, Int.natAbs_natCast]
      rcases Int.lt_trichotomy num 0 with hn | hn | hn
      · simp [Int.sign_eq_neg_one_of_neg hn]
      · simp [hn]
      · simp [Int.sign_eq_one_of_pos hn], h.2⟩
  else none

/-- The decimal nearest to `num / den` at the largest scale, at most `scale`, where one fits. -/
def nearest? (num : Int) (den : Nat) : Nat → Option Decimal
  | 0 => atScale? num den 0
  | scale + 1 =>
    match atScale? num den (scale + 1) with
    | some d => some d
    | none => nearest? num den scale

theorem atScale?_eq_none_iff {num : Int} {den scale : Nat} :
    atScale? num den scale = none ↔
      maxCoefficient < roundHalfEven (num.natAbs * 10 ^ scale) den ∨ maxScale < scale := by
  simp only [atScale?]
  split <;> rename_i h
  · simp only [reduceCtorEq, false_iff]; omega
  · simp only [true_iff]; omega

/-- No decimal is near enough only if the integer part does not fit. -/
theorem nearest?_eq_none_iff {num : Int} {den scale : Nat} :
    nearest? num den scale = none ↔ ∀ s ≤ scale, atScale? num den s = none := by
  induction scale with
  | zero => simp [nearest?]
  | succ n ih =>
    simp only [nearest?]
    split <;> rename_i h
    · simp only [reduceCtorEq, false_iff]
      exact fun hs => by simp [hs (n + 1) (Nat.le_refl _)] at h
    · rw [ih]
      refine ⟨fun hs s hle => ?_, fun hs s hle => hs s (by omega)⟩
      rcases Nat.lt_or_ge s (n + 1) with hlt | hge
      · exact hs s (by omega)
      · exact (show s = n + 1 by omega) ▸ h

/-! ## 2. The operations -/

/-- The sum.  A zero operand gives the other one as it is, so its places are not merged. -/
def add (a b : Decimal) : Except Overflow Decimal :=
  if a.isZero then .ok b
  else if b.isZero then .ok a
  else
    let scale := Nat.max a.scale b.scale
    let sum := a.coefficient * (10 ^ (scale - a.scale) : Nat) +
      b.coefficient * (10 ^ (scale - b.scale) : Nat)
    ((nearest? sum (10 ^ scale) scale).map .ok).getD (.error .addition)

/-- The difference, with the places of a sum. -/
def sub (a b : Decimal) : Except Overflow Decimal :=
  (a.add (-b)).mapError fun _ => .subtraction

/-- The product.  A zero operand gives a zero without places, and so do two coefficients of
32 bits whose places add up to more than 47: the result is below half a unit there. -/
def mul (a b : Decimal) : Except Overflow Decimal :=
  let scale := a.scale + b.scale
  if a.isZero || b.isZero then .ok zero
  else if a.coefficient.natAbs < shortWordCount && b.coefficient.natAbs < shortWordCount &&
      47 < scale then
    .ok zero
  else
    ((nearest? (a.coefficient * b.coefficient) (10 ^ scale) scale).map .ok).getD
      (.error .multiplication)

/-- The quotient at up to 28 places.  A zero divisor counts as an overflow. -/
def div (a b : Decimal) : Except Overflow Decimal :=
  if b.isZero then .error .division
  else if a.isZero then .ok zero
  else
    let num := a.coefficient * b.coefficient.sign * (10 ^ b.scale : Nat)
    let den := b.coefficient.natAbs * 10 ^ a.scale
    ((nearest? num den maxScale).map .ok).getD (.error .division)

/-- The sum of a list, from the left, starting at zero. -/
def sum (l : List Decimal) : Except Overflow Decimal :=
  l.foldlM add zero

end Decimal
end Reconciliation
