/-
# Spans of time

A span is a number of nanoseconds that a 64-bit count of seconds can hold.  Arithmetic stays
within that range.

* `nanos_times`: a multiple is exact or the longest span;
* `toText`: the largest unit with a nonzero whole part, without trailing zeros.
-/
import Reconciliation.Text.Digits

namespace Reconciliation

/-- The nanoseconds of the longest span. -/
def Span.maxNanos : Nat := 18446744073709551615 * 1000000000 + 999999999

/-- A length of time. -/
structure Span where
  nanos : Nat
  nanos_le : nanos ≤ Span.maxNanos
  deriving DecidableEq

namespace Span

instance : LE Span := ⟨fun a b => a.nanos ≤ b.nanos⟩

instance : LT Span := ⟨fun a b => a.nanos < b.nanos⟩

instance (a b : Span) : Decidable (a ≤ b) := Nat.decLe _ _

instance (a b : Span) : Decidable (a < b) := Nat.decLt _ _

/-- The span of some nanoseconds, or the longest one. -/
def ofNanos (n : Nat) : Span := ⟨Nat.min n maxNanos, Nat.min_le_right _ _⟩

def ofMillis (n : Nat) : Span := ofNanos (n * 1000000)

def ofSeconds (n : Nat) : Span := ofNanos (n * 1000000000)

def zero : Span := ⟨0, Nat.zero_le _⟩

instance : Inhabited Span := ⟨zero⟩

def isZero (s : Span) : Bool := s.nanos == 0

/-- The whole seconds. -/
def seconds (s : Span) : Nat := s.nanos / 1000000000

/-- The whole milliseconds. -/
def millis (s : Span) : Nat := s.nanos / 1000000

/-- The nanoseconds after the whole seconds. -/
def subsecond (s : Span) : Nat := s.nanos % 1000000000

def min (a b : Span) : Span := if b < a then b else a

/-- A multiple, or the longest span if the multiple is longer. -/
def times (s : Span) (n : Nat) : Span := ofNanos (s.nanos * n)

theorem nanos_times (s : Span) (n : Nat) : (s.times n).nanos = Nat.min (s.nanos * n) maxNanos := rfl

/-- A number with the digits after its point, trailing zeros left out. -/
def pointedText (whole fraction width : Nat) : String :=
  let kept := ((Text.padded width fraction).reverse.dropWhile (· == '0')).reverse
  toString whole ++ (if kept.isEmpty then "" else "." ++ String.ofList kept)

def toText (s : Span) : String :=
  if 1000000000 ≤ s.nanos then pointedText s.seconds s.subsecond 9 ++ "s"
  else if 1000000 ≤ s.nanos then pointedText (s.nanos / 1000000) (s.nanos % 1000000) 6 ++ "ms"
  else if 1000 ≤ s.nanos then pointedText (s.nanos / 1000) (s.nanos % 1000) 3 ++ "µs"
  else toString s.nanos ++ "ns"

end Span

end Reconciliation
