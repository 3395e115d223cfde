/-
# Names of exchanges, assets and symbols

An identifier is kept in its one canonical form: without white space at its ends, exchanges in
lower case, assets and symbols in upper case.  Only the ASCII letters have cases here, so every
other character stands for itself.

* `canonical_canonical`: canonical text stays as it is;
* `Identifier.of`: the identifier of any text, possibly an empty one;
* `Identifier.parse`: the same, refusing the empty one.
-/
import Reconciliation.Text.Blank
import Reconciliation.Json.Value

namespace Reconciliation

/-! ## 1. Canonical text -/

/-- What an identifier names. -/
inductive IdentifierKind
  | exchange
  | asset
  | symbol
  deriving DecidableEq, Repr

namespace IdentifierKind

/-- The word for the kind in messages. -/
def name : IdentifierKind → String
  | .exchange => "exchange"
  | .asset => "asset"
  | .symbol => "symbol"

/-- The case of a letter in an identifier of the kind. -/
def foldCase : IdentifierKind → Char → Char
  | .exchange => Char.toLower
  | .asset => Char.toUpper
  | .symbol => Char.toUpper

def canonicalChars (k : IdentifierKind) (cs : List Char) : List Char :=
  (Text.trim cs).map k.foldCase

/-- The canonical form of a text. -/
def canonical (k : IdentifierKind) (s : String) : String :=
  String.ofList (k.canonicalChars s.toList)

end IdentifierKind

theorem toNat_toLower (c : Char) :
    c.toLower.toNat = if 65 ≤ c.toNat ∧ c.toNat ≤ 90 then c.toNat + 32 else c.toNat := by
  delta Char.toLower
  split <;> rename_i h <;> simp only [ge_iff_le, UInt32.le_iff_toNat_le] at h
  · have h1 : 65 ≤ c.toNat ∧ c.toNat ≤ 90 := h
    rw [if_pos h1]
    have h3 : c.val.toNat = c.toNat := rfl
    show (c.val + 32).toNat = _
    rw [UInt32.toNat_add, h3]
    show (c.toNat + 32) % 4294967296 = _
    omega
  · have h1 : ¬ (65 ≤ c.toNat ∧ c.toNat ≤ 90) := h
    rw [if_neg h1]

theorem toNat_toUpper (c : Char) :
    c.toUpper.toNat = if 97 ≤ c.toNat ∧ c.toNat ≤ 122 then c.toNat - 32 else c.toNat := by
  delta Char.toUpper
  split <;> rename_i h <;> simp only [UInt32.le_iff_toNat_le] at h
  · have h1 : 97 ≤ c.toNat ∧ c.toNat ≤ 122 := h
    rw [if_pos h1]
    have h3 : c.val.toNat = c.toNat := rfl
    show (c.val + _).toNat = _
    rw [UInt32.toNat_add, h3]
    show (c.toNat + 4294967264) % 4294967296 = _
    omega
  · have h1 : ¬ (97 ≤ c.toNat ∧ c.toNat ≤ 122) := h
    rw [if_neg h1]

theorem char_eq_of_toNat {c d : Char} (h : c.toNat = d.toNat) : c = d :=
  Char.ext (UInt32.toNat_inj.1 h)

namespace IdentifierKind

@[simp] theorem foldCase_foldCase (k : IdentifierKind) (c : Char) :
    k.foldCase (k.foldCase c) = k.foldCase c := by
  apply char_eq_of_toNat
  cases k <;> simp only [foldCase, toNat_toLower, toNat_toUpper] <;> grind

/-- No letter is a blank, in either case. -/
@[simp] theorem isBlank_foldCase (k : IdentifierKind) (c : Char) :
    Text.isBlank (k.foldCase c) = Text.isBlank c := by
  rw [Bool.eq_iff_iff]
  cases k <;>
    simp only [Text.isBlank, Text.blankRanges, List.any_cons, List.any_nil, Bool.or_eq_true,
      Bool.and_eq_true, Bool.false_eq_true, or_false, decide_eq_true_eq,
      foldCase, toNat_toLower, toNat_toUpper] <;>
    split <;> omega

theorem dropWhile_map_foldCase (k : IdentifierKind) (cs : List Char) :
    (cs.map k.foldCase).dropWhile Text.isBlank = (cs.dropWhile Text.isBlank).map k.foldCase := by
  induction cs with
  | nil => rfl
  | cons c cs ih =>
    by_cases h : Text.isBlank c = true <;> simp [h, ih]

theorem trim_map_foldCase (k : IdentifierKind) (cs : List Char) :
    Text.trim (cs.map k.foldCase) = (Text.trim cs).map k.foldCase := by
  simp only [Text.trim, Text.trimStart, Text.trimEnd, dropWhile_map_foldCase, ← List.map_reverse]

theorem canonicalChars_canonicalChars (k : IdentifierKind) (cs : List Char) :
    k.canonicalChars (k.canonicalChars cs) = k.canonicalChars cs := by
  simp only [canonicalChars, trim_map_foldCase, Text.trim_trim, List.map_map]
  exact List.map_congr_left fun c _ => foldCase_foldCase k c

theorem canonical_canonical (k : IdentifierKind) (s : String) :
    k.canonical (k.canonical s) = k.canonical s := by
  simp only [canonical, String.toList_ofList, canonicalChars_canonicalChars]

end IdentifierKind

/-! ## 2. Identifiers -/

/-- A name in canonical form. -/
structure Identifier (k : IdentifierKind) where
  text : String
  canonical : k.canonical text = text
  deriving DecidableEq

/-- The venue of balances, orders and positions. -/
abbrev ExchangeId := Identifier .exchange

abbrev AssetId := Identifier .asset

/-- A traded instrument. -/
abbrev Symbol := Identifier .symbol

/-- An order's id, as its exchange spells it. -/
abbrev OrderId := String

/-- Text that names nothing: it is empty in canonical form. -/
structure IdentifierError where
  kind : IdentifierKind
  raw : String
  deriving DecidableEq

def IdentifierError.message (e : IdentifierError) : String :=
  "invalid " ++ e.kind.name ++ " identifier '" ++ e.raw ++ "'"

namespace Identifier

variable {k : IdentifierKind}

/-- The identifier of a text; blank text gives the empty one. -/
def of (k : IdentifierKind) (s : String) : Identifier k := ⟨k.canonical s, k.canonical_canonical s⟩

def isEmpty (i : Identifier k) : Bool := i.text.isEmpty

/-- The identifier of a text that names something. -/
def parse (k : IdentifierKind) (s : String) : Except IdentifierError (Identifier k) :=
  if (of k s).isEmpty then .error ⟨k, s⟩ else .ok (of k s)

theorem ext_text {i j : Identifier k} (h : i.text = j.text) : i = j := by
  cases i; cases j; cases h; rfl

theorem of_text (i : Identifier k) : of k i.text = i := ext_text i.canonical

instance : Inhabited (Identifier k) := ⟨of k ""⟩

instance : ToString (Identifier k) := ⟨text⟩

instance : Ord (Identifier k) := ⟨fun a b => compare a.text b.text⟩

instance : Std.TransOrd (Identifier k) :=
  inferInstanceAs (Std.TransCmp (compareOn (text (k := k))))

instance : Std.LawfulEqOrd (Identifier k) where
  compare_self := Std.ReflOrd.compare_self (α := String)
  eq_of_compare h := ext_text (Std.LawfulEqOrd.eq_of_compare (α := String) h)

/-- Reads an identifier that names something. -/
def ofText? (k : IdentifierKind) (s : String) : Option (Identifier k) := (parse k s).toOption

def ofJson? (k : IdentifierKind) (j : Json) : Option (Identifier k) := j.asText?.bind (ofText? k)

def toJson (i : Identifier k) : Json := .text i.text

end Identifier

end Reconciliation
