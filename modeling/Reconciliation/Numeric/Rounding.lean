/-
# Rounding a quotient

Every arithmetic result of the library, decimal or binary, is the nearest integer to an exact
quotient, a half going to the even neighbour.  Only the reading of numbers sends a half up.

* `roundHalfEven_mul`: exact quotients are kept;
* `two_mul_roundHalfEven_le`, `le_two_mul_roundHalfEven`: the result is within half a unit.
-/

namespace Reconciliation

/-- The integer nearest to `num / den`; a half goes to the even neighbour. -/
def roundHalfEven (num den : Nat) : Nat :=
  let q := num / den
  let r := num % den
  if 2 * r < den then q
  else if den < 2 * r then q + 1
  else q + q % 2

/-- The integer nearest to `num / den`; a half goes up. -/
def roundHalfUp (num den : Nat) : Nat := (2 * num + den) / (2 * den)

theorem roundHalfEven_mul (q den : Nat) (h : 0 < den) : roundHalfEven (q * den) den = q := by
  simp [roundHalfEven, Nat.mul_div_cancel _ h, h]

/-- The result exceeds the quotient by half a unit at most. -/
theorem two_mul_roundHalfEven_le (num den : Nat) (h : 0 < den) :
    2 * (roundHalfEven num den * den) ≤ 2 * num + den := by
  have hd : den * (num / den) + num % den = num := Nat.div_add_mod num den
  have hr : num % den < den := Nat.mod_lt _ h
  have hc : num / den * den = den * (num / den) := Nat.mul_comm _ _
  simp only [roundHalfEven]
  split
  · omega
  · split
    · have : (num / den + 1) * den = den * (num / den) + den := by
        rw [Nat.add_mul, hc, Nat.one_mul]
      omega
    · rcases Nat.mod_two_eq_zero_or_one (num / den) with e | e <;> rw [e]
      · simp only [Nat.add_zero]; omega
      · have : (num / den + 1) * den = den * (num / den) + den := by
          rw [Nat.add_mul, hc, Nat.one_mul]
        omega

/-- The result falls short of the quotient by half a unit at most. -/
theorem le_two_mul_roundHalfEven (num den : Nat) (h : 0 < den) :
    2 * num ≤ 2 * (roundHalfEven num den * den) + den := by
  have hd : den * (num / den) + num % den = num := Nat.div_add_mod num den
  have hr : num % den < den := Nat.mod_lt _ h
  have hc : num / den * den = den * (num / den) := Nat.mul_comm _ _
  simp only [roundHalfEven]
  split
  · omega
  · split
    · have : (num / den + 1) * den = den * (num / den) + den := by
        rw [Nat.add_mul, hc, Nat.one_mul]
      omega
    · rcases Nat.mod_two_eq_zero_or_one (num / den) with e | e <;> rw [e]
      · simp only [Nat.add_zero]; omega
      · have : (num / den + 1) * den = den * (num / den) + den := by
          rw [Nat.add_mul, hc, Nat.one_mul]
        omega

end Reconciliation
