/-
# Plain values of TOML

A value without quotes or brackets: a constant, an integer of 64 bits, a double, or a date or
time, which counts as its text in one spelling.  Numbers that are not finite count as nothing.

* `Toml.scalar?`: the value of a word.
-/
import Reconciliation.Numeric.Binary64
import Reconciliation.Numeric.Word
import Reconciliation.Json.Value
import Reconciliation.Text.Digits
import Reconciliation.Time.Calendar

namespace Reconciliation
namespace Toml

/-! ## 1. Numbers -/

/-- Digits with single underscores between them; the underscores are left out. -/
def groupedDigits? (isDigit : Char → Bool) : List Char → Option (List Char)
  | [] => none
  | [c] => if isDigit c then some [c] else none
  | c :: '_' :: rest => if isDigit c then (groupedDigits? isDigit rest).map (c :: ·) else none
  | c :: rest => if isDigit c then (groupedDigits? isDigit rest).map (c :: ·) else none

/-- Takes a sign off. -/
def splitSign : List Char → Bool × List Char
  | '-' :: rest => (true, rest)
  | '+' :: rest => (false, rest)
  | cs => (false, cs)

/-- Decimal digits without a needless zero in front. -/
def wholeDigits? (cs : List Char) : Option (List Char) :=
  match groupedDigits? Char.isDigit cs with
  | some ds => if 1 < ds.length && ds.head? == some '0' then none else some ds
  | none => none

/-- The value of digits to a base, each of which is below it. -/
def radixValue? (base : Nat) (cs : List Char) : Option Nat := do
  let isDigit := fun c => (Text.hexValue? c).any (· < base)
  let ds ← groupedDigits? isDigit cs
  return ds.foldl (fun n c => n * base + (Text.hexValue? c).getD 0) 0

/-- An integer that fits into a signed word of 64 bits. -/
def integer? (cs : List Char) : Option Int := do
  let n : Int ← match cs with
    | '0' :: 'x' :: ds => (radixValue? 16 ds).map Int.ofNat
    | '0' :: 'o' :: ds => (radixValue? 8 ds).map Int.ofNat
    | '0' :: 'b' :: ds => (radixValue? 2 ds).map Int.ofNat
    | cs =>
      let (negative, ds) := splitSign cs
      (wholeDigits? ds).map fun ds =>
        if negative then -(Text.digitsValue ds : Int) else Text.digitsValue ds
  if FitsSigned n then some n else none

/-- The power of ten after an exponent mark, if there is one. -/
def exponent? : List Char → Option Int
  | [] => some 0
  | e :: rest =>
    if e == 'e' || e == 'E' then
      let (negative, ds) := splitSign rest
      (groupedDigits? Char.isDigit ds).map fun ds =>
        if negative then -(Text.digitsValue ds : Int) else Text.digitsValue ds
    else none

def isDigitOrLine (c : Char) : Bool := c.isDigit || c == '_'

/-- The double nearest to a decimal number with places or an exponent. -/
def real? (cs : List Char) : Option Binary64 := do
  let (negative, cs) := splitSign cs
  let whole ← wholeDigits? (cs.takeWhile isDigitOrLine)
  let rest := cs.dropWhile isDigitOrLine
  let (places, rest) ← match rest with
    | '.' :: rest =>
      (groupedDigits? Char.isDigit (rest.takeWhile isDigitOrLine)).map
        (·, rest.dropWhile isDigitOrLine)
    | [] => none
    | rest => some ([], rest)
  let power ← exponent? rest
  Binary64.ofDecimal? negative (Text.digitsValue (whole ++ places)) (power - places.length)

/-! ## 2. Dates and times -/

/-- Digits, exactly as many as asked for. -/
def takeDigits? (width : Nat) (cs : List Char) : Option (Nat × List Char) :=
  let ds := cs.take width
  if ds.length = width ∧ ds.all Char.isDigit then some (Text.digitsValue ds, cs.drop width)
  else none

def takeMark? (mark : Char) : List Char → Option (List Char)
  | c :: rest => if c = mark then some rest else none
  | [] => none

/-- A date that exists, with the text of it. -/
def date? (cs : List Char) : Option (List Char × List Char) := do
  let (year, rest) ← takeDigits? 4 cs
  let (month, rest) ← takeDigits? 2 (← takeMark? '-' rest)
  let (day, rest) ← takeDigits? 2 (← takeMark? '-' rest)
  if CivilDate.isValid ⟨year, month, day⟩ then some (cs.take 10, rest) else none

/-- Whether a word is a date without a time. -/
def isDate (cs : List Char) : Bool := (date? cs).map (·.2) == some []

/-- A time of day with at most nine places and no needless zeros at its end. -/
def time? (cs : List Char) : Option (List Char × List Char) := do
  let (hour, rest) ← takeDigits? 2 cs
  let (minute, rest) ← takeDigits? 2 (← takeMark? ':' rest)
  let (second, rest) ← takeDigits? 2 (← takeMark? ':' rest)
  if hour < 24 ∧ minute < 60 ∧ second ≤ 60 then
    match rest with
    | '.' :: rest =>
      let ds := rest.takeWhile Char.isDigit
      let kept := ((ds.take 9).reverse.dropWhile (· == '0')).reverse
      if ds = [] then none
      else some (cs.take 8 ++ (if kept = [] then [] else '.' :: kept), rest.drop ds.length)
    | rest => some (cs.take 8, rest)
  else none

/-- The text of an offset from UTC; nothing stays nothing. -/
def offset? : List Char → Option (List Char)
  | [] => some []
  | ['Z'] => some ['Z']
  | ['z'] => some ['Z']
  | sign :: rest => do
    let (hours, after) ← takeDigits? 2 rest
    let (minutes, after) ← takeDigits? 2 (← takeMark? ':' after)
    if (sign == '+' || sign == '-') && hours < 24 && minutes < 60 && after == [] then
      some ((if hours + minutes = 0 then '+' else sign) :: rest)
    else none

/-- A time of day, a date, or both with or without an offset. -/
def moment? (cs : List Char) : Option (List Char) :=
  match date? cs with
  | none => match time? cs with
    | some (time, []) => some time
    | _ => none
  | some (date, []) => some date
  | some (date, mark :: rest) => do
    let (time, rest) ← time? rest
    if mark == 'T' || mark == 't' || mark == ' ' then
      return date ++ 'T' :: time ++ (← offset? rest)
    else none

/-! ## 3. All of them -/

/-- The spellings of numbers that are not finite. -/
def notFinite : List String := ["inf", "+inf", "-inf", "nan", "+nan", "-nan"]

/-- The value of a word. -/
def scalar? (cs : List Char) : Option Json :=
  if cs = "true".toList then some (.bool true)
  else if cs = "false".toList then some (.bool false)
  else if String.ofList cs ∈ notFinite then some .null
  else
    match integer? cs with
    | some n => some (.ofInt n)
    | none =>
      match real? cs with
      | some x => some (.ofReal x)
      | none => (moment? cs).map fun t => .text (String.ofList t)

end Toml
end Reconciliation
