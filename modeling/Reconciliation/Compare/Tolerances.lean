/-
# Tolerances

How far two amounts may lie apart and still count as equal, and how far a mismatch may go before
it is critical.

* `allowance`: the larger of an absolute amount and a share of the expected one;
* `severityFor`: critical from a share of the expected amount on.
-/
import Reconciliation.Account.Balance

namespace Reconciliation

/-! ## 1. Severity -/

inductive Severity
  | info
  | warning
  | critical
  deriving DecidableEq, Repr

namespace Severity

def all : List Severity := [.info, .warning, .critical]

def name : Severity → String
  | .info => "INFO"
  | .warning => "WARNING"
  | .critical => "CRITICAL"

/-- The place in the order from harmless to critical. -/
def rank : Severity → Nat
  | .info => 0
  | .warning => 1
  | .critical => 2

def ofJson? (j : Json) : Option Severity := j.asName?.bind fun n => all.find? (·.name = n)

def toJson (s : Severity) : Json := .text s.name

end Severity

/-! ## 2. Faults of a configuration -/

/-- Why settings cannot be worked with. -/
inductive ConfigurationFault
  | negativeTolerance
  | criticalRatioNotPositive
  /-- A time limit of zero, by the name of its setting. -/
  | zeroLimit (setting : String)
  | noConcurrency
  | backoffBeyondMaximum
  | noExchange
  | repeatedExchange (exchange : String)
  deriving DecidableEq, Repr

def ConfigurationFault.message : ConfigurationFault → String
  | .negativeTolerance => "tolerances must not be negative"
  | .criticalRatioNotPositive => "critical ratio must be positive"
  | .zeroLimit setting => setting ++ " must be greater than zero"
  | .noConcurrency => "max_concurrent_collections must be at least 1"
  | .backoffBeyondMaximum => "initial backoff exceeds max backoff"
  | .noExchange => "at least one exchange connector is required"
  | .repeatedExchange exchange => s!"exchange {exchange} is configured more than once"

/-! ## 3. Tolerances -/

structure Tolerances where
  absolute : Decimal
  /-- The share of the expected amount that is allowed. -/
  relative : Decimal
  /-- The share of the expected amount from which a mismatch is critical. -/
  criticalRatio : Decimal
  deriving DecidableEq

namespace Tolerances

/-- A millionth, absolute and relative; critical from one percent. -/
def standard : Tolerances :=
  let millionth : Decimal := { Decimal.one with scale := 6, scale_le := by decide }
  { absolute := millionth
    relative := millionth
    criticalRatio := { Decimal.one with scale := 2, scale_le := by decide } }

instance : Inhabited Tolerances := ⟨standard⟩

/-- The largest divergence that still counts as equal. -/
def allowance (t : Tolerances) (expected : Decimal) : Except Decimal.Overflow Decimal := do
  return t.absolute.max (← t.relative.mul expected.abs)

def within (t : Tolerances) (expected actual : Decimal) : Except Decimal.Overflow Bool := do
  let divergence ← actual.sub expected
  return divergence.abs ≤ (← t.allowance expected)

/-- How bad a divergence is.  Any divergence from an expected zero is critical. -/
def severityFor (t : Tolerances) (expected delta : Decimal) :
    Except Decimal.Overflow Severity := do
  if expected.isZero then return .critical
  else
    let ratio ← delta.abs.div expected.abs
    return if ratio < t.criticalRatio then .warning else .critical

def validate (t : Tolerances) : Except ConfigurationFault Unit :=
  if t.absolute.isNegative || t.relative.isNegative then throw .negativeTolerance
  else if t.criticalRatio ≤ .zero then throw .criticalRatioNotPositive
  else return ()

def ofJson? (j : Json) : Option Tolerances :=
  j.readRecord do
    return ⟨← .required "absolute" Decimal.ofJson?, ← .required "relative" Decimal.ofJson?,
      ← .required "critical_ratio" Decimal.ofJson?⟩

def toJson (t : Tolerances) : Json :=
  .object [
    ("absolute", t.absolute.toJson),
    ("relative", t.relative.toJson),
    ("critical_ratio", t.criticalRatio.toJson)]

end Tolerances

end Reconciliation
