/-
# UUIDs

A UUID is a number of 128 bits, written as 32 lower-case hexadecimal digits in five groups.
Reading takes the digits in either case, with or without hyphens, and the hyphenated form also
in braces or after `urn:uuid:`.

* `named`: the version 5 UUID of a name in a namespace;
* `stamped`: a version 4 UUID that carries a number.
-/
import Reconciliation.Sha1
import Reconciliation.Text.Digits
import Reconciliation.Json.Value

namespace Reconciliation

/-! ## 1. Numbers -/

/-- The number of numbers of 128 bits. -/
def Uuid.count : Nat := 1 <<< 128

structure Uuid where
  value : Nat
  value_lt : value < Uuid.count
  deriving DecidableEq

namespace Uuid

def ofNat (n : Nat) : Uuid := ⟨n % count, Nat.mod_lt _ (by decide)⟩

instance : Inhabited Uuid := ⟨ofNat 0⟩

instance : Ord Uuid := ⟨fun a b => compare a.value b.value⟩

instance : Std.TransOrd Uuid := inferInstanceAs (Std.TransCmp (compareOn value))

instance : Std.LawfulEqOrd Uuid where
  compare_self := Std.ReflOrd.compare_self (α := Nat)
  eq_of_compare {a b} h := by
    have h : a.value = b.value := Std.LawfulEqOrd.eq_of_compare (α := Nat) h
    cases a; cases b; cases h; rfl

/-- The number of a list of bytes, most significant first. -/
def bytesValue (bytes : List UInt8) : Nat := bytes.foldl (fun n b => n * 256 + b.toNat) 0

def bytes (u : Uuid) : List UInt8 := Sha1.bigEndian 16 u.value

/-- The UUID with a version number and the common variant in their places. -/
def withVersion (version : Nat) (n : Nat) : Uuid :=
  let low := n % (1 <<< 62) + 1 <<< 63
  let middle := (n >>> 64) % (1 <<< 12) + (version % 16) <<< 12
  ofNat ((n >>> 80) <<< 80 + middle <<< 64 + low)

/-- The UUID of a name, always the same one in the same namespace. -/
def named (space : Uuid) (name : String) : Uuid :=
  let digest := Sha1.digest (space.bytes ++ name.toUTF8.toList)
  withVersion 5 (bytesValue (digest.take 16))

/-- A UUID of its own for each tag of 48 bits and each number of 74 bits. -/
def stamped (tag n : Nat) : Uuid :=
  withVersion 4 ((tag % (1 <<< 48)) <<< 80 + (n >>> 62 % (1 <<< 12)) <<< 64 + n % (1 <<< 62))

/-! ## 2. Text -/

def hexDigits (u : Uuid) : List Char :=
  (List.range 32).map fun i => Text.hexDigit (u.value >>> (4 * (31 - i)))

def toChars (u : Uuid) : List Char :=
  let ds := u.hexDigits
  ds.take 8 ++ '-' :: (ds.drop 8).take 4 ++ '-' :: (ds.drop 12).take 4 ++
    '-' :: (ds.drop 16).take 4 ++ '-' :: ds.drop 20

def toText (u : Uuid) : String := String.ofList u.toChars

instance : ToString Uuid := ⟨toText⟩

/-- Reads 32 hexadecimal digits. -/
def ofHexDigits? (cs : List Char) : Option Uuid :=
  if cs.length = 32 then
    (cs.foldlM (fun n c => (Text.hexValue? c).map (n * 16 + ·)) 0).map ofNat
  else none

/-- Reads the hyphenated form. -/
def ofHyphenated? (cs : List Char) : Option Uuid :=
  if cs.length = 36 && [8, 13, 18, 23].all (fun i => cs[i]? == some '-') then
    ofHexDigits? (cs.take 8 ++ (cs.drop 9).take 4 ++ (cs.drop 14).take 4 ++
      (cs.drop 19).take 4 ++ cs.drop 24)
  else none

def ofChars? (cs : List Char) : Option Uuid :=
  if cs.length = 32 then ofHexDigits? cs
  else if cs.length = 36 then ofHyphenated? cs
  else if cs.length = 38 && cs.head? == some '\x7b' && cs.getLast? == some '\x7d' then
    ofHyphenated? (cs.drop 1).dropLast
  else if cs.length = 45 && cs.take 9 == "urn:uuid:".toList then ofHyphenated? (cs.drop 9)
  else none

def ofText? (s : String) : Option Uuid := ofChars? s.toList

def ofJson? (j : Json) : Option Uuid := j.asText?.bind ofText?

def toJson (u : Uuid) : Json := .text u.toText

end Uuid

end Reconciliation
