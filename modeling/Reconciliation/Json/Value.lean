/-
# JSON values

A value keeps its members in the order in which they were written.  A name that occurs twice
counts with its last value.
-/
import Reconciliation.Numeric.Binary64
import Reconciliation.Numeric.Word

namespace Reconciliation

/-- A JSON number: an integer of 64 bits, signed or unsigned, or a double. -/
inductive Json.Number
  | int (n : Int)
  | real (x : Binary64)
  deriving DecidableEq

inductive Json
  | null
  | bool (b : Bool)
  | number (n : Json.Number)
  | text (s : String)
  | array (items : List Json)
  | object (members : List (String × Json))
  deriving Inhabited

namespace Json

def ofNat (n : Nat) : Json := .number (.int n)

def ofInt (n : Int) : Json := .number (.int n)

def ofReal (x : Binary64) : Json := .number (.real x)

instance : Coe String Json := ⟨.text⟩

/-- The last value of a name. -/
def lookup (name : String) : List (String × Json) → Option Json
  | [] => none
  | (n, v) :: rest =>
    match lookup name rest with
    | some w => some w
    | none => if n = name then some v else none

/-- The value, or `null`. -/
def ofOption (f : α → Json) : Option α → Json
  | some a => f a
  | none => .null

def asText? : Json → Option String
  | .text s => some s
  | _ => none

def asBool? : Json → Option Bool
  | .bool b => some b
  | _ => none

/-- An integer from `0` to below `bound`. -/
def asNatBelow? (bound : Nat) : Json → Option Nat
  | .number (.int n) => if 0 ≤ n ∧ n < bound then some n.toNat else none
  | _ => none

def asNat64? : Json → Option Nat := asNatBelow? wordCount

def asNat32? : Json → Option Nat := asNatBelow? shortWordCount

def asInt64? : Json → Option Int
  | .number (.int n) => if FitsSigned n then some n else none
  | _ => none

/-- Any number as a double. -/
def asReal? : Json → Option Binary64
  | .number (.int n) => Binary64.ofRatio? (decide (n < 0)) n.natAbs 1
  | .number (.real x) => some x
  | _ => none

/-- A list, each item read by `f`. -/
def asList? (f : Json → Option α) : Json → Option (List α)
  | .array items => items.mapM f
  | _ => none

/-- The members that count: of members with one name the last. -/
def distinct : List (String × Json) → List (String × Json)
  | [] => []
  | (n, v) :: rest => if (lookup n rest).isSome then distinct rest else (n, v) :: distinct rest

/-- The members of an object, names and values read apart. -/
def asMembers? {κ α : Type} (name : String → Option κ) (value : Json → Option α) :
    Json → Option (List (κ × α))
  | .object members => (distinct members).mapM fun (n, v) => do return (← name n, ← value v)
  | _ => none

/-- Nothing for `null`. -/
def asOption? (f : Json → Option α) : Json → Option (Option α)
  | .null => some none
  | j => (f j).map some

/-- One of finitely many names: written as text, or as the only name of an object with no
content. -/
def asName? : Json → Option String
  | .text s => some s
  | .object [(n, .null)] => some n
  | _ => none

end Json

end Reconciliation
