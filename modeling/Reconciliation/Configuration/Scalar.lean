/-
# Scalars of a configuration

A document says which kind each of its values is; in layers of configuration a value may also be
written as another kind and is converted.

* `ScalarReader.strict`: the kind has to be the wanted one;
* `ScalarReader.lenient`: numbers are read from text, text is written from numbers.
-/
import Reconciliation.Json.Value
import Reconciliation.Numeric.Binary64.Shortest
import Reconciliation.Text.Digits
import Reconciliation.Text.LowerCase

namespace Reconciliation

/-- How scalars are read. -/
structure ScalarReader where
  text? : Json → Option String
  /-- An unsigned integer of 64 bits. -/
  nat64? : Json → Option Nat
  /-- An unsigned integer of 32 bits. -/
  nat32? : Json → Option Nat

namespace ScalarReader

def strict : ScalarReader := ⟨Json.asText?, Json.asNat64?, Json.asNat32?⟩

/-- Words that stand for one and for zero. -/
def wordValue? (s : String) : Option Nat :=
  if s ∈ ["true", "on", "yes"] then some 1
  else if s ∈ ["false", "off", "no"] then some 0
  else none

/-- The nearest integer of 64 bits, a half going up. -/
def nat64OfReal (x : Binary64) : Nat :=
  let (n, d) := x.magnitude
  if x.negative then 0 else min (roundHalfUp n d) (wordCount - 1)

/-- An unsigned integer of 64 bits from any scalar. -/
def convertNat64? : Json → Option Nat
  | .number (.int n) => Json.asNat64? (.ofInt n)
  | .number (.real x) => some (nat64OfReal x)
  | .bool b => some b.toNat
  | .text s =>
    (wordValue? (Text.lowerCase s)).orElse fun _ => Text.readNat64? s
  | _ => none

/-- The text of any scalar. -/
def convertText? : Json → Option String
  | .text s => some s
  | .bool b => some (toString b)
  | .number (.int n) => some (toString n)
  | .number (.real x) => some x.positional
  | _ => none

/-- Reads every scalar as the wanted kind.  Of an integer for 32 bits the lowest bits are kept. -/
def lenient : ScalarReader :=
  ⟨convertText?, convertNat64?, fun j => (convertNat64? j).map (· % shortWordCount)⟩

end ScalarReader

end Reconciliation
