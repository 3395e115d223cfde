/-
# Instants as RFC 3339 text

Instants are written in UTC, with as few of 0, 3, 6 or 9 places of a second as lose nothing, and
with a sign and at least four digits for a year outside 0000 to 9999.  Reading takes any offset
and is lenient about blanks; `ofStrictText?` takes four-digit years only.

* `toZuluText`: with `Z`, as records are written;
* `toOffsetText`: with `+00:00`, as messages and stored keys are written;
* `ofText?`, `ofStrictText?`: the readers.
-/
import Reconciliation.Time.Instant
import Reconciliation.Time.Calendar
import Reconciliation.Text.Blank
import Reconciliation.Text.Digits
import Reconciliation.Json.Value

namespace Reconciliation
namespace Instant

-- Powers are those of the core library, whatever other instances are in scope.
attribute [local instance (2000)] instPowNat

/-! ## 1. Writing -/

/-- A year; outside the four-digit years it has a sign. -/
def yearChars (y : Int) : List Char :=
  if y < 0 then '-' :: Text.padded 4 y.natAbs
  else if 9999 < y then '+' :: Text.padded 4 y.natAbs
  else Text.padded 4 y.natAbs

/-- The places of a second, with their point. -/
def fractionChars (nanos : Nat) : List Char :=
  if nanos = 0 then []
  else if nanos % 1000000 = 0 then '.' :: Text.padded 3 (nanos / 1000000)
  else if nanos % 1000 = 0 then '.' :: Text.padded 6 (nanos / 1000)
  else '.' :: Text.padded 9 nanos

/-- The civil date of an instant. -/
def date (a : Instant) : CivilDate := CivilDate.ofDays (a.seconds / 86400)

/-- Date, time and fraction, without an offset.  A leap second is second 60 of its minute. -/
def localChars (a : Instant) : List Char :=
  let d := a.date
  let s := a.secondOfDay.toNat
  let leap := a.nanos / 1000000000
  yearChars d.year ++ '-' :: Text.padded 2 d.month ++ '-' :: Text.padded 2 d.day ++
    'T' :: Text.padded 2 (s / 3600) ++ ':' :: Text.padded 2 (s / 60 % 60) ++
    ':' :: Text.padded 2 (s % 60 + leap) ++ fractionChars (a.nanos % 1000000000)

def toZuluText (a : Instant) : String := String.ofList (a.localChars ++ ['Z'])

def toOffsetText (a : Instant) : String := String.ofList (a.localChars ++ "+00:00".toList)

/-! ## 2. Reading -/

/-- One to `width` digits after blanks. -/
def readNumber? (width : Nat) (cs : List Char) : Option (Nat × List Char) :=
  let cs := Text.trimStart cs
  let ds := (cs.take width).takeWhile Char.isDigit
  if ds = [] then none else some (Text.digitsValue ds, cs.drop ds.length)

/-- A year: up to four digits, or any number of them after a sign. -/
def readYear? (cs : List Char) : Option (Int × List Char) :=
  match Text.trimStart cs with
  | '-' :: rest => (unbounded rest).map fun (n, rest) => (-(n : Int), rest)
  | '+' :: rest => (unbounded rest).map fun (n, rest) => ((n : Int), rest)
  | cs => (readNumber? 4 cs).map fun (n, rest) => ((n : Int), rest)
where
  unbounded (cs : List Char) : Option (Nat × List Char) :=
    match cs.takeWhile Char.isDigit with
    | [] => none
    | ds => some (Text.digitsValue ds, cs.dropWhile Char.isDigit)

/-- A mark after blanks. -/
def readMark? (mark : Char) (cs : List Char) : Option (List Char) :=
  match Text.trimStart cs with
  | c :: rest => if c = mark then some rest else none
  | [] => none

/-- The places of a second; those after the ninth are dropped. -/
def readFraction? : List Char → Option (Nat × List Char)
  | '.' :: rest =>
    match rest.takeWhile Char.isDigit with
    | [] => none
    | ds =>
      let ds' := ds.take 9
      some (Text.digitsValue ds' * 10 ^ (9 - ds'.length), rest.dropWhile Char.isDigit)
  | cs => some (0, cs)

def isColonOrBlank (c : Char) : Bool := c == ':' || Text.isBlank c

/-- Two digits. -/
def readPair? : List Char → Option (Nat × List Char)
  | a :: b :: rest =>
    if a.isDigit && b.isDigit then some (Text.digitsValue [a, b], rest) else none
  | _ => none

/-- An offset from UTC in seconds: `Z`, `UTC`, or hours and minutes with a sign. -/
def readOffset? (cs : List Char) : Option (Int × List Char) :=
  match Text.trimStart cs with
  | 'Z' :: rest => some (0, rest)
  | 'z' :: rest => some (0, rest)
  | c :: rest =>
    if (c :: rest.take 2).map Char.toUpper = "UTC".toList then some (0, rest.drop 2)
    else if c == '+' || c == '-' || c == '−' then do
      let (hours, rest) ← readPair? rest
      let (minutes, rest) ← readPair? (rest.dropWhile isColonOrBlank)
      if minutes < 60 ∧ hours < 24 then
        let seconds : Int := hours * 3600 + minutes * 60
        some (if c == '+' then seconds else -seconds, rest)
      else none
    else none
  | [] => none

/-- The years that an instant may lie in. -/
def yearInRange (y : Int) : Bool := -262143 ≤ y && y ≤ 262142

/-- The instant of a local date and time of day, `offset` seconds ahead of UTC. -/
def ofCivil? (d : CivilDate) (hour minute second nanos : Nat) (offset : Int) : Option Instant :=
  if d.isValid && yearInRange d.year && hour < 24 && minute < 60 && second ≤ 60 then
    let leap := second / 60
    let seconds := d.toDays * 86400 + hour * 3600 + minute * 60 + (second - leap : Nat) - offset
    let nanos := leap * 1000000000 + nanos
    if h : nanos < 2000000000 ∧ (1000000000 ≤ nanos → seconds % 60 = 59) then
      let a : Instant := ⟨seconds, nanos, h.1, h.2⟩
      if yearInRange a.date.year then some a else none
    else none
  else none

/-- Reads an instant; blanks may stand before a number or a mark and at the end. -/
def ofChars? (cs : List Char) : Option Instant := do
  let (year, cs) ← readYear? cs
  let cs ← readMark? '-' cs
  let (month, cs) ← readNumber? 2 cs
  let cs ← readMark? '-' cs
  let (day, cs) ← readNumber? 2 cs
  let cs ← match cs with
    | 'T' :: rest => some rest
    | 't' :: rest => some rest
    | ' ' :: rest => some rest
    | _ => none
  let (hour, cs) ← readNumber? 2 cs
  let cs ← readMark? ':' cs
  let (minute, cs) ← readNumber? 2 cs
  let cs ← readMark? ':' cs
  let (second, cs) ← readNumber? 2 cs
  let (nanos, cs) ← readFraction? cs
  let (offset, cs) ← readOffset? cs
  if (Text.trimStart cs).isEmpty then
    ofCivil? ⟨year, month, day⟩ hour minute second nanos offset
  else none

def ofText? (s : String) : Option Instant := ofChars? s.toList

/-- Reads an instant whose year has four digits and no sign. -/
def ofStrictText? (s : String) : Option Instant :=
  let cs := s.toList
  if (cs.takeWhile Char.isDigit).length = 4 then ofChars? cs else none

def ofJson? (j : Json) : Option Instant := j.asText?.bind ofText?

def toJson (a : Instant) : Json := .text a.toZuluText

end Instant
end Reconciliation
