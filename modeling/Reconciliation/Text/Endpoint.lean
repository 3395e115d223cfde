/-
# Addresses of endpoints

An endpoint is written as an IP address and the number of a service there: `127.0.0.1:9100`, or
`[::1]:9100` with brackets around an address of version 6.

* `isAddress4`, `isAddress6`: the two kinds of addresses;
* `isEndpoint`: an address and a service.
-/
import Reconciliation.Text.Digits

namespace Reconciliation
namespace Text

/-- A number in decimal digits alone, below a bound. -/
def isDecimalBelow (bound : Nat) (cs : List Char) : Bool :=
  !cs.isEmpty && cs.all Char.isDigit && digitsValue cs < bound

/-! ## 1. Version 4 -/

/-- One of the four parts of an address, without a leading zero. -/
def isOctet (cs : List Char) : Bool :=
  isDecimalBelow 256 cs && (cs.length = 1 || cs.head? ≠ some '0')

def isAddress4 (cs : List Char) : Bool :=
  let octets := cs.splitOn '.'
  octets.length = 4 && octets.all isOctet

/-! ## 2. Version 6 -/

/-- One of the eight parts of an address: up to four hexadecimal digits. -/
def isHextet (cs : List Char) : Bool :=
  !cs.isEmpty && cs.length ≤ 4 && cs.all fun c => (hexValue? c).isSome

/-- How many parts these are.  An address of version 4 may be the last of them and counts twice. -/
def hextets? : List (List Char) → Option Nat
  | [] => some 0
  | [last] => if isHextet last then some 1 else if isAddress4 last then some 2 else none
  | cs :: rest => if isHextet cs then (hextets? rest).map (· + 1) else none

/-- How many parts a text between gaps has. -/
def hextetsOf? (cs : List Char) : Option Nat :=
  if cs.isEmpty then some 0 else hextets? (cs.splitOn ':')

/-- What stands before and after the first two colons in a row. -/
def splitGap? : List Char → Option (List Char × List Char)
  | ':' :: ':' :: rest => some ([], rest)
  | c :: rest => (splitGap? rest).map fun (front, back) => (c :: front, back)
  | [] => none

/-- Eight parts, or fewer with one gap that stands for at least one.  An address of version 4 stands
at the very end only. -/
def isAddress6 (cs : List Char) : Bool :=
  match splitGap? cs with
  | none => hextetsOf? cs = some 8
  | some (front, back) =>
    match hextetsOf? front, hextetsOf? back with
    | some m, some n => !front.contains '.' && m + n ≤ 7
    | _, _ => false

/-- An address of version 6, perhaps with the number of a zone behind a percent sign. -/
def isZonedAddress6 (cs : List Char) : Bool :=
  isAddress6 (cs.takeWhile (· ≠ '%')) &&
    match cs.dropWhile (· ≠ '%') with
    | [] => true
    | _ :: zone => isDecimalBelow shortWordCount zone

/-! ## 3. Endpoints -/

/-- The number of a service, below `2 ^ 16`. -/
def isService (cs : List Char) : Bool := isDecimalBelow 65536 cs

def isEndpoint (s : String) : Bool :=
  match s.toList with
  | '[' :: rest =>
    match rest.dropWhile (· ≠ ']') with
    | ']' :: ':' :: service => isZonedAddress6 (rest.takeWhile (· ≠ ']')) && isService service
    | _ => false
  | cs =>
    match cs.dropWhile (· ≠ ':') with
    | _ :: service => isAddress4 (cs.takeWhile (· ≠ ':')) && isService service
    | [] => false

end Text
end Reconciliation
