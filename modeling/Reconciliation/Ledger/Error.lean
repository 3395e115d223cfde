/-
# What a ledger refuses

Each cause of a refusal has its own constructor, and one function gives it words.
-/
import Reconciliation.Account.Position

namespace Reconciliation

/-! ## 1. Causes -/

/-- Why the records of an account would contradict themselves. -/
inductive Violation
  | negativeBalance (asset : AssetId) (free locked : Decimal)
  | unbalancedTotal (asset : AssetId) (balance : Balance)
  | overfilledOrder (id : OrderId) (quantity filled : Decimal)
  | untrackedOrder (id : OrderId) (exchange : ExchangeId)
  | negativePosition (symbol : Symbol) (quantity : Decimal)
  /-- A stored record, by its sequence number, that cannot be applied again. -/
  | replay (sequence : Nat) (cause : Violation)
  /-- A refusal by a ledger that gives its reason in words. -/
  | reported (reason : String)
  deriving DecidableEq

/-- Why stored records cannot be written or found. -/
inductive StorageFault
  | sequenceTaken
  | recordIdTaken
  | failed (reason : String)
  deriving DecidableEq

inductive LedgerError
  | storage (fault : StorageFault)
  | serialization (reason : String)
  | invalid (violation : Violation)
  | versionUnavailable (asOf : String)
  | notRunning
  /-- An amount that no decimal can hold, or a number beyond the last word. -/
  | overflow (operation : Overflow)
  deriving DecidableEq

/-! ## 2. Words for them -/

def Violation.message : Violation → String
  | .negativeBalance asset free locked =>
    s!"{asset} balance would become negative (free={free}, locked={locked})"
  | .unbalancedTotal asset b =>
    s!"{asset} total {b.total} does not equal free {b.free} + locked {b.locked}"
  | .overfilledOrder id quantity filled =>
    s!"order {id} has inconsistent quantities (qty={quantity}, filled={filled})"
  | .untrackedOrder id exchange => s!"order {id} is not tracked on {exchange}"
  | .negativePosition symbol quantity => s!"position {symbol} has negative quantity {quantity}"
  | .replay sequence cause =>
    s!"journal record {sequence} failed to replay: invalid ledger state: {cause.message}"
  | .reported reason => reason

def StorageFault.message : StorageFault → String
  | .sequenceTaken => "UNIQUE constraint failed: journal_records.sequence"
  | .recordIdTaken => "UNIQUE constraint failed: journal_records.record_id"
  | .failed reason => reason

def LedgerError.message : LedgerError → String
  | .storage fault => s!"storage error: {fault.message}"
  | .serialization reason => s!"serialization error: {reason}"
  | .invalid violation => s!"invalid ledger state: {violation.message}"
  | .versionUnavailable asOf => s!"no ledger version committed at or before {asOf}"
  | .notRunning => "ledger is not running"
  | .overflow operation => operation.message

/-- The name of an error's kind; an overflow has none. -/
def LedgerError.kind? : LedgerError → Option String
  | .storage _ => some "Storage"
  | .serialization _ => some "Serialization"
  | .invalid _ => some "InvalidState"
  | .versionUnavailable _ => some "VersionUnavailable"
  | .notRunning => some "NotRunning"
  | .overflow _ => none

/-- An error of a kind that is given by name; other names report an invalid state. -/
def LedgerError.ofKind (kind reason : String) : LedgerError :=
  match kind with
  | "Storage" => .storage (.failed reason)
  | "Serialization" => .serialization reason
  | "VersionUnavailable" => .versionUnavailable reason
  | "NotRunning" => .notRunning
  | _ => .invalid (.reported reason)

/-- Arithmetic on a ledger's amounts and numbers. -/
instance : MonadLift (Except Overflow) (Except LedgerError) :=
  ⟨fun x => x.mapError .overflow⟩

/-! ## 3. Procedures -/

/-- A procedure on data in place.  However it ends, what it has changed by then stays changed. -/
abbrev LedgerAction (σ : Type) := EStateM LedgerError σ

namespace LedgerAction

/-- A check inside a procedure changes nothing. -/
instance : MonadLift (Except LedgerError) (LedgerAction σ) :=
  ⟨fun x s => match x with
    | .ok a => .ok a s
    | .error e => .error e s⟩

/-- What a procedure makes of a copy of the data.  If it fails, the copy is lost. -/
def result (p : LedgerAction σ α) (s : σ) : Except LedgerError σ :=
  match p.run s with
  | .ok _ s' => .ok s'
  | .error e _ => .error e

end LedgerAction

end Reconciliation
