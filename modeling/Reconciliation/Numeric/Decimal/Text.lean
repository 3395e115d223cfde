/-
# Decimals as text

A decimal is written with all of its places.  Reading accepts more than writing produces: a
sign, missing digits on one side of the point, `_` between digits, more places than fit (the
first digit that does not fit decides the rounding, half away from zero) and an exponent.
-/
import Reconciliation.Numeric.Decimal
import Reconciliation.Numeric.Rounding
import Reconciliation.Text.Digits

namespace Reconciliation
namespace Decimal

-- Powers are those of the core library, whatever other instances are in scope.
attribute [local instance (2000)] instPowNat

/-! ## 1. Writing -/

/-- The characters of a decimal: sign, integer part, and a point before the places. -/
def toChars (d : Decimal) : List Char :=
  let ds := Text.padded (d.scale + 1) d.coefficient.natAbs
  let whole := ds.take (ds.length - d.scale)
  let places := ds.drop (ds.length - d.scale)
  let body := if d.scale = 0 then whole else whole ++ '.' :: places
  if d.isNegative then '-' :: body else body

def toText (d : Decimal) : String := String.ofList d.toChars

instance : ToString Decimal := ⟨toText⟩

/-! ## 2. Reading digits around a point -/

/-- What may follow the digit at which reading rounds. -/
def isIgnorable (c : Char) : Bool := c.isDigit || c == '_'

/-- The number read so far, rounded at a digit that does not fit.  If the rounding itself
overflows, one more place is dropped. -/
def settle (mantissa scale digit : Nat) : Option (Nat × Nat) :=
  if digit < 5 then some (mantissa, scale)
  else if mantissa + 1 ≤ maxCoefficient then some (mantissa + 1, scale)
  else if scale = 0 then none
  else some ((mantissa + 5) / 10, scale - 1)

/-- Reads digits with at most one point.  `point` says whether it was passed, `started` whether
there was a digit; the result is a mantissa with its number of places. -/
def readDigits (mantissa scale : Nat) (point started : Bool) : List Char → Option (Nat × Nat)
  | [] => if started then some (mantissa, scale) else none
  | c :: rest =>
    if c.isDigit then
      let next := mantissa * 10 + Text.digitValue c
      if point && (maxScale ≤ scale || maxCoefficient < next) then
        if rest.all isIgnorable then settle mantissa scale (Text.digitValue c) else none
      else if maxCoefficient < next then none
      else readDigits next (if point then scale + 1 else scale) point true rest
    else if c == '.' && !point then readDigits mantissa scale true started rest
    else if c == '_' && started then
      if point && maxScale ≤ scale then
        if rest.all isIgnorable then some (mantissa, scale) else none
      else readDigits mantissa scale point true rest
    else none

/-- A decimal from its parts, if they are in range. -/
def ofParts? (negative : Bool) (mantissa scale : Nat) : Option Decimal :=
  if h : mantissa ≤ maxCoefficient ∧ scale ≤ maxScale then
    some ⟨if negative then -(mantissa : Int) else mantissa, scale,
      by split <;> simp [h.1], h.2⟩
  else none

/-- Reads a decimal without an exponent. -/
def ofPlainChars? : List Char → Option Decimal
  | '-' :: rest => (readDigits 0 0 false false rest).bind fun (m, s) => ofParts? true m s
  | '+' :: rest => (readDigits 0 0 false false rest).bind fun (m, s) => ofParts? false m s
  | cs => (readDigits 0 0 false false cs).bind fun (m, s) => ofParts? false m s

/-! ## 3. Exponents -/

/-- An unsigned number of 32 bits, with an optional plus sign. -/
def readExponent? (cs : List Char) : Option Nat :=
  let ds := if cs.head? = some '+' then cs.tail else cs
  if ds ≠ [] && ds.all Char.isDigit then
    let n := Text.digitsValue ds
    if n < shortWordCount then some n else none
  else none

/-- Moves the point to the left, by 28 places at most.  Places beyond the 28th are rounded away,
a half going away from zero. -/
def shiftLeft? (d : Decimal) (places : Nat) : Option Decimal :=
  if maxScale < places then none
  else if h : d.scale + places ≤ maxScale then
    some ⟨d.coefficient, d.scale + places, d.coefficient_le, h⟩
  else ofParts? d.isNegative
    (roundHalfUp d.coefficient.natAbs (10 ^ (d.scale + places - maxScale))) maxScale

/-- Moves the point to the right.  Places are used up first; beyond them the result is an
integer, which has to fit and is not written with more than 28 added zeros. -/
def shiftRight? (d : Decimal) (places : Nat) : Option Decimal :=
  if places ≤ d.scale then
    some ⟨d.coefficient, d.scale - places, d.coefficient_le,
      Nat.le_trans (Nat.sub_le _ _) d.scale_le⟩
  else if maxScale < places then none
  else ofInt? (d.coefficient * (10 ^ (places - d.scale) : Nat))

/-- Reads a decimal with an exponent after the first `e` or `E`. -/
def ofExponentChars? (cs : List Char) : Option Decimal :=
  let base := cs.takeWhile (fun c => c != 'e' && c != 'E')
  match cs.dropWhile (fun c => c != 'e' && c != 'E') with
  | [] => none
  | _ :: '-' :: exponent => do
    let d ← ofPlainChars? base
    shiftLeft? d (← readExponent? exponent)
  | _ :: exponent => do
    let d ← ofPlainChars? base
    shiftRight? d (← readExponent? exponent)

/-- Reads a decimal, with or without an exponent. -/
def ofChars? (cs : List Char) : Option Decimal :=
  (ofPlainChars? cs).orElse fun _ => ofExponentChars? cs

def ofText? (s : String) : Option Decimal := ofChars? s.toList

end Decimal
end Reconciliation
