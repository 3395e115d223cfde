/-
# The shortest text of a double

A double is written with the fewest decimal digits that read back as the same double and, of
those, the digits nearest to it.

* `shortest`: the digits and the power of ten;
* `positional`: without an exponent;
* `scientific`: positional near one, otherwise with an exponent, and always a point or an
  exponent.
-/
import Reconciliation.Numeric.Binary64

namespace Reconciliation
namespace Binary64

-- Powers are those of the core library, whatever other instances are in scope.
attribute [local instance (2000)] instPowNat

/-! ## 1. Digits -/

/-- The `p` with `10 ^ p ≤ num / den < 10 ^ (p + 1)`, for a positive quotient. -/
def decimalExponent (num den : Nat) : Int :=
  if den ≤ num then ((Nat.toDigits 10 (num / den)).length : Int) - 1
  else
    let d := (Nat.toDigits 10 (den / num)).length
    if den ≤ num * 10 ^ (d - 1) then -((d : Int) - 1) else -(d : Int)

/-- The reals that round to a double: its magnitude and the distances to both ends, over one
denominator.  Below a power of two the doubles lie twice as close. -/
structure Interval where
  centre : Nat
  below : Nat
  above : Nat
  den : Nat
  closed : Bool

def interval (x : Binary64) : Interval :=
  let step := 2 ^ x.exponent.toNat
  { centre := 4 * x.mantissa * step
    below := if x.mantissa = 2 ^ (precision - 1) ∧ -1074 < x.exponent then step else 2 * step
    above := 2 * step
    den := 4 * 2 ^ (-x.exponent).toNat
    closed := x.mantissa % 2 == 0 }

/-- Whether `num / den` rounds to the double. -/
def Interval.contains (i : Interval) (num den : Nat) : Bool :=
  let point := num * i.den
  let low := (i.centre - i.below) * den
  let high := (i.centre + i.above) * den
  if i.closed then low ≤ point && point ≤ high else low < point && point < high

/-- The multiple of `10 ^ power` nearest to the double, if one rounds to it; of two equally near
the even one. -/
def Interval.onGrid? (i : Interval) (power : Int) : Option (Nat × Int) :=
  let up := 10 ^ power.toNat
  let down := 10 ^ (-power).toNat
  let c := i.centre * down / (i.den * up)
  let low := i.contains (c * up) down
  let high := i.contains ((c + 1) * up) down
  let nearest := roundHalfEven (i.centre * down) (i.den * up)
  if low && (nearest == c || !high) then some (c, power)
  else if high then some (c + 1, power)
  else none

/-- The shortest digits `n` and power `k` such that `n * 10 ^ k` reads back as the double.  The
grid of one digit has a tenth point, the next power of ten. -/
def shortest (x : Binary64) : Nat × Int :=
  if x.mantissa = 0 then (0, 0)
  else
    let i := x.interval
    let p := decimalExponent i.centre i.den
    match (List.range 17).findSome? fun (n : Nat) => i.onGrid? (p - n) with
    | some (10, k) => (1, k + 1)
    | some hit => hit
    | none => (0, 0)

/-! ## 2. Layout -/

def signText (x : Binary64) : String := if x.negative then "-" else ""

/-- Digits with the point after the first `point` of them. -/
def pointed (digits : List Char) (point : Int) : List Char × List Char :=
  let n : Int := digits.length
  if point ≤ 0 then (['0'], List.replicate (-point).toNat '0' ++ digits)
  else if n ≤ point then (digits ++ List.replicate (point - n).toNat '0', [])
  else (digits.take point.toNat, digits.drop point.toNat)

/-- The text without an exponent; an integral value has no point. -/
def positional (x : Binary64) : String :=
  let (n, k) := x.shortest
  if n = 0 then x.signText ++ "0"
  else
    let digits := Nat.toDigits 10 n
    let (whole, places) := pointed digits (digits.length + k)
    let body := if places.isEmpty then whole else whole ++ '.' :: places
    x.signText ++ String.ofList body

/-- The text with an exponent for magnitudes below `1e-5` and from `1e16` on; an integral value
keeps one zero after its point. -/
def scientific (x : Binary64) : String :=
  let (n, k) := x.shortest
  if n = 0 then x.signText ++ "0.0"
  else
    let digits := Nat.toDigits 10 n
    let point : Int := digits.length + k
    if -5 < point ∧ point ≤ 16 then
      let (whole, places) := pointed digits point
      x.signText ++ String.ofList whole ++ "." ++
        (if places.isEmpty then "0" else String.ofList places)
    else
      let head := String.ofList (digits.take 1)
      let tail := digits.drop 1
      x.signText ++ head ++ (if tail.isEmpty then "" else "." ++ String.ofList tail) ++
        "e" ++ toString (point - 1)

end Binary64
end Reconciliation
