/-
# Balances

A balance says how much of an asset an account holds, and how much of it is free or locked.  The
total is recorded on its own: a record may contradict itself, which is for others to notice.
-/
import Reconciliation.Numeric.Decimal.Arithmetic
import Reconciliation.Numeric.Decimal.Text
import Reconciliation.Json.Record
import Reconciliation.Numeric.Binary64.Shortest

namespace Reconciliation

namespace Decimal

/-- Reads a decimal from text or from a number.  A double counts as its shortest text. -/
def ofJson? : Json → Option Decimal
  | .text s => ofText? s
  | .number (.int n) => ofInt? n
  | .number (.real x) => ofPlainChars? x.positional.toList
  | _ => none

def toJson (d : Decimal) : Json := .text d.toText

end Decimal

/-- The holding of one asset. -/
structure Balance where
  total : Decimal
  free : Decimal
  locked : Decimal
  deriving DecidableEq

namespace Balance

/-- Nothing held. -/
def empty : Balance := ⟨.zero, .zero, .zero⟩

instance : Inhabited Balance := ⟨empty⟩

/-- A balance without a locked part. -/
def ofFree (amount : Decimal) : Balance := ⟨amount, amount, .zero⟩

/-- The balance whose total is the sum of its parts. -/
def ofParts (free locked : Decimal) : Except Decimal.Overflow Balance := do
  return ⟨← free.add locked, free, locked⟩

def ofJson? (j : Json) : Option Balance :=
  j.readRecord do
    let total ← Json.RecordReader.required "total" Decimal.ofJson?
    let free ← Json.RecordReader.required "free" Decimal.ofJson?
    let locked ← Json.RecordReader.required "locked" Decimal.ofJson?
    return ⟨total, free, locked⟩

def toJson (b : Balance) : Json :=
  .object [("total", b.total.toJson), ("free", b.free.toJson), ("locked", b.locked.toJson)]

end Balance

end Reconciliation
