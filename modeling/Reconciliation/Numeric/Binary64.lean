/-
# Double-precision numbers

A finite double is a sign and `mantissa * 2 ^ exponent`, with 53 bits of mantissa and the
exponents of the interchange format.  Every operation rounds its exact result to the nearest
double, halves to even, and gives nothing where that result is out of range, so infinities and
not-a-number do not arise.

* `ofRatio?`: the double nearest to a quotient;
* `add?`, `mul?`, `div?`: the exact result, rounded once.
-/
import Reconciliation.Numeric.Rounding

namespace Reconciliation

-- Powers are those of the core library, whatever other instances are in scope.
attribute [local instance (2000)] instPowNat

/-- The bits of a mantissa. -/
def Binary64.precision : Nat := 53

/-- A finite double.  The mantissa uses all of its bits unless the exponent is the least one. -/
structure Binary64 where
  negative : Bool
  mantissa : Nat
  exponent : Int
  mantissa_lt : mantissa < 2 ^ Binary64.precision
  exponent_ge : -1074 ≤ exponent
  exponent_le : exponent ≤ 971
  normal : 2 ^ (Binary64.precision - 1) ≤ mantissa ∨ exponent = -1074
  deriving DecidableEq

namespace Binary64

def zero : Binary64 := ⟨false, 0, -1074, by decide, by decide, by decide, .inr rfl⟩

instance : Inhabited Binary64 := ⟨zero⟩

/-- A double from its parts, if they are a double's parts. -/
def ofParts? (negative : Bool) (mantissa : Nat) (exponent : Int) : Option Binary64 :=
  if h : mantissa < 2 ^ precision ∧ -1074 ≤ exponent ∧ exponent ≤ 971 ∧
      (2 ^ (precision - 1) ≤ mantissa ∨ exponent = -1074) then
    some ⟨negative, mantissa, exponent, h.1, h.2.1, h.2.2.1, h.2.2.2⟩
  else none

/-- The quotient `num / den / 2 ^ exponent`, as numerator and denominator. -/
def scaled (num den : Nat) (exponent : Int) : Nat × Nat :=
  (num * 2 ^ (-exponent).toNat, den * 2 ^ exponent.toNat)

/-- The exponent at which `num / den` has 53 bits before the point, but at least `-1074`. -/
def exponentFor (num den : Nat) : Int :=
  let guess : Int := (num.log2 : Int) - den.log2 - 52
  let (n, d) := scaled num den guess
  Max.max (if n < d * 2 ^ (precision - 1) then guess - 1 else guess) (-1074)

/-- The double nearest to `num / den`, with the given sign. -/
def ofRatio? (negative : Bool) (num den : Nat) : Option Binary64 :=
  let e := exponentFor num den
  let (n, d) := scaled num den e
  let m := roundHalfEven n d
  if num = 0 then some { zero with negative := negative }
  else if m = 2 ^ precision then ofParts? negative (2 ^ (precision - 1)) (e + 1)
  else ofParts? negative m e

def ofNat? (n : Nat) : Option Binary64 := ofRatio? false n 1

/-- The double nearest to `digits * 10 ^ power`.  A power far out of range is not computed: `10` is
more than `2 ^ 3`, so what is below `2 ^ (-1100)` shows without it. -/
def ofDecimal? (negative : Bool) (digits : Nat) (power : Int) : Option Binary64 :=
  if digits = 0 ∨ (power < 0 ∧ (digits.log2 : Int) + 1 + 3 * power < -1100) then
    some { zero with negative := negative }
  else if 400 < power then none
  else ofRatio? negative (digits * 10 ^ power.toNat) (10 ^ (-power).toNat)

/-- The magnitude as numerator and denominator. -/
def magnitude (x : Binary64) : Nat × Nat :=
  (x.mantissa * 2 ^ x.exponent.toNat, 2 ^ (-x.exponent).toNat)

def neg (x : Binary64) : Binary64 := { x with negative := !x.negative }

def add? (x y : Binary64) : Option Binary64 :=
  let (n, d) := x.magnitude
  let (n', d') := y.magnitude
  let signed (negative : Bool) (k : Nat) : Int := if negative then -(k : Int) else k
  let sum := signed x.negative (n * d') + signed y.negative (n' * d)
  let negative := if sum = 0 then x.negative && y.negative else decide (sum < 0)
  ofRatio? negative sum.natAbs (d * d')

def mul? (x y : Binary64) : Option Binary64 :=
  let (n, d) := x.magnitude
  let (n', d') := y.magnitude
  ofRatio? (x.negative != y.negative) (n * n') (d * d')

/-- The quotient; nothing for a zero divisor. -/
def div? (x y : Binary64) : Option Binary64 :=
  let (n, d) := x.magnitude
  let (n', d') := y.magnitude
  if n' = 0 then none else ofRatio? (x.negative != y.negative) (n * d') (d * n')

/-- The order of values; the two zeros are alike. -/
def le (x y : Binary64) : Bool :=
  let (n, d) := x.magnitude
  let (n', d') := y.magnitude
  let signed (negative : Bool) (k : Nat) : Int := if negative then -(k : Int) else k
  decide (signed x.negative (n * d') ≤ signed y.negative (n' * d))

end Binary64

end Reconciliation
