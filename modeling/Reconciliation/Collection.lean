/-
# Collecting from exchanges and from the ledger

Each category is fetched on its own: a call that has no answer within its time limit counts as a
timeout, and calls that fail for a passing reason are repeated.  A category that cannot be
fetched degrades the snapshot.  What a call does and how time passes is left to the monad.

* `fetch`, `readExpected`: one category, and the ledger's expectation;
* `ExchangeSnapshot.ofFetches`: the snapshot of an exchange.
-/
import Reconciliation.Compare.Snapshot
import Reconciliation.Session.Error
import Reconciliation.Settings

namespace Reconciliation

/-! ## 1. Categories -/

/-- What an exchange answers to a call. -/
inductive CategoryState
  | balances (balances : SortedMap AssetId Balance)
  | orders (orders : List Order)
  | positions (positions : List Position)
  deriving DecidableEq

namespace ExchangeSnapshot

/-- Puts the state of a category in. -/
def put (s : ExchangeSnapshot) : CategoryState → ExchangeSnapshot
  | .balances b => { s with balances := b }
  | .orders l => { s with openOrders := l }
  | .positions l => { s with positions := l }

/-- Puts in what came of a category. -/
def addFetch (s : ExchangeSnapshot) :
    Category × Except ReconciliationError CategoryState → ExchangeSnapshot
  | (_, .ok state) => s.put state
  | (c, .error e) => s.markDegraded c e.message

/-- The snapshot that the results of fetching make up, in the order of the categories. -/
def ofFetches (exchange : ExchangeId) (time : Instant)
    (results : List (Category × Except ReconciliationError CategoryState)) : ExchangeSnapshot :=
  results.foldl addFetch (new exchange time)

end ExchangeSnapshot

/-- The categories that an exchange can be asked for. -/
def Category.supported (supportsPositions : Bool) : List Category :=
  if supportsPositions then all else [.balances, .orders]

/-! ## 2. Fetching -/

variable {m : Type → Type} [Monad m]

/-- The answer of a call, where none within the time limit is a timeout. -/
def answerWithin (limit : Span) (c : Category) :
    Option (Except ConnectorError α) → Except ConnectorError α
  | some answer => answer
  | none => .error ⟨.timeout, s!"{c.name} call exceeded {limit.toText}"⟩

/-- Fetches a category of an exchange. -/
def fetch (s : EngineSettings) (exchange : ExchangeId) (c : Category)
    (call : m (Option (Except ConnectorError α))) (wait : Span → m Unit) :
    m (Except ReconciliationError α) := do
  let answer ← s.retry.run (·.isTransient) (answerWithin s.callTimeout c <$> call) wait
  return answer.mapError (.connectivity exchange)

/-- Whether a read of the ledger is worth repeating. -/
def isTransientRead : ReconciliationError → Bool
  | .ledgerTimeout _ => true
  | .ledger (.storage _) => true
  | _ => false

/-- The answer of a read, where none within the time limit is a timeout. -/
def readWithin (limit : Span) :
    Option (Except LedgerError LedgerState) → Except ReconciliationError LedgerState
  | some answer => answer.mapError .ledger
  | none => .error (.ledgerTimeout limit)

/-- Reads what the ledger expected at an instant. -/
def readExpected (s : EngineSettings) (time : Instant)
    (call : m (Option (Except LedgerError LedgerState))) (wait : Span → m Unit) :
    m (Except ReconciliationError LedgerSnapshot) := do
  let answer ← s.retry.run isTransientRead (readWithin s.ledgerTimeout <$> call) wait
  return answer.map (LedgerSnapshot.ofState · time)

end Reconciliation
