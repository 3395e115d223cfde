/-
# Running a session

While a session runs, its tasks complete one after the other: each exchange with a snapshot, the
ledger with what it expects.  A snapshot is compared as soon as the ledger has been read; until
then it waits.  When all tasks are done, or the session is interrupted, what is left is accounted
for, so that every exchange has an outcome.

* `SessionRun.complete`: one completed task;
* `SessionRun.settle`: the end of the run;
* `SessionPlan.perform`: a whole run, up to its report.
-/
import Reconciliation.Compare.Detection
import Reconciliation.Session.Report
import Reconciliation.Session.Error

namespace Reconciliation

/-! ## 1. Events -/

/-- What a task of a session ends with. -/
inductive Completion
  | collected (snapshot : ExchangeSnapshot)
  | ledgerRead (snapshot : LedgerSnapshot)
  | ledgerFailed (error : ReconciliationError)
  /-- The task broke off without a result. -/
  | lost
  deriving DecidableEq

/-- Why a session ends before its tasks. -/
inductive Interruption
  | cancelled
  /-- The time limit of the session has passed. -/
  | deadline (limit : Span)
  deriving DecidableEq

/-- What a session knows of the ledger. -/
inductive LedgerView
  | awaited
  | unavailable
  | read (snapshot : LedgerSnapshot)
  deriving DecidableEq

/-! ## 2. The state of a run -/

structure SessionRun where
  session : Session
  ledger : LedgerView
  /-- The snapshots that wait for the ledger. -/
  waiting : List ExchangeSnapshot
  /-- The time of the last snapshot; later snapshots are not earlier. -/
  lastCaptured : Instant
  deriving DecidableEq

namespace SessionRun

def start (s : Session) : SessionRun :=
  { session := s, ledger := .awaited, waiting := [], lastCaptured := s.startTime }

/-- Compares a snapshot with the ledger and records what was found. -/
def recordCompared (t : Tolerances) (ledger : LedgerSnapshot) (s : Session)
    (snapshot : ExchangeSnapshot) : Except Decimal.Overflow Session := do
  return s.recordExchange snapshot (← snapshot.compareWithLedger t ledger)

/-- Records a snapshot that there is no ledger to compare with. -/
def recordUnmatched (s : Session) (snapshot : ExchangeSnapshot) : Session :=
  s.recordExchange snapshot snapshot.connectivity

/-- Takes the time of a snapshot forward, if it is earlier than the last one. -/
def stamp (r : SessionRun) (snapshot : ExchangeSnapshot) : ExchangeSnapshot :=
  { snapshot with capturedAt := snapshot.capturedAt.max r.lastCaptured }

/-- Takes a snapshot in. -/
def collect (t : Tolerances) (r : SessionRun) (snapshot : ExchangeSnapshot) :
    Except Decimal.Overflow SessionRun := do
  let snapshot := r.stamp snapshot
  let r := { r with lastCaptured := snapshot.capturedAt }
  match r.ledger with
  | .read ledger => return { r with session := ← recordCompared t ledger r.session snapshot }
  | .unavailable => return { r with session := recordUnmatched r.session snapshot }
  | .awaited => return { r with waiting := r.waiting ++ [snapshot] }

/-- The note on a ledger view that is newer than what was asked for. -/
def laterNote (ledger : LedgerSnapshot) : String :=
  "ledger history no longer covers the session start; compared against version " ++
    s!"{ledger.version} committed at {ledger.committedAt.toOffsetText}"

/-- Takes the ledger's expectation in, and compares the snapshots that waited for it. -/
def readLedger (t : Tolerances) (r : SessionRun) (ledger : LedgerSnapshot) :
    Except Decimal.Overflow SessionRun := do
  let session := { r.session with ledgerVersion := some ledger.version }
  let session :=
    if ledger.isLaterThanRequested then session.addNote (laterNote ledger) else session
  let session ← r.waiting.foldlM (recordCompared t ledger) session
  return { r with session, ledger := .read ledger, waiting := [] }

/-- One completed task. -/
def complete (t : Tolerances) (r : SessionRun) : Completion → Except Decimal.Overflow SessionRun
  | .collected snapshot => r.collect t snapshot
  | .ledgerRead ledger => r.readLedger t ledger
  | .ledgerFailed error =>
    return { r with
      session := r.session.addNote s!"ledger unavailable: {error.message}"
      ledger := .unavailable }
  | .lost => return r

/-! ## 3. The end of a run -/

/-- Notes why the run ended. -/
def noteEnd (r : SessionRun) (interruption : Option Interruption) : SessionRun :=
  let session := match interruption with
    | some .cancelled => r.session.markCancelled
    | some (.deadline limit) => r.session.addNote
        s!"session deadline of {limit.millis}ms elapsed; outstanding collections discarded"
    | none => r.session
  let session := if r.ledger = .awaited then
      session.addNote "ledger read did not finish before the session ended"
    else session
  { r with session }

/-- Records the snapshots that still wait. -/
def flush (r : SessionRun) : SessionRun :=
  { r with session := r.waiting.foldl recordUnmatched r.session, waiting := [] }

/-- The error of a collection that the time limit cut off. -/
def unfinishedError : String := "collection did not finish before the session deadline"

/-- Accounts for an exchange.  Without an outcome it failed; after a deadline it counts as
unavailable at the time `now`. -/
def account (t : Tolerances) (interruption : Option Interruption) (now : ExchangeId → Instant)
    (r : SessionRun) (exchange : ExchangeId) : Except Decimal.Overflow SessionRun :=
  if r.session.outcomes.contains exchange then return r
  else
    match interruption with
    | some (.deadline _) => do
      let snapshot := r.stamp (.unavailable exchange (now exchange) unfinishedError)
      let r := { r with lastCaptured := snapshot.capturedAt }
      match r.ledger with
      | .read ledger => return { r with session := ← recordCompared t ledger r.session snapshot }
      | _ => return { r with session := recordUnmatched r.session snapshot }
    | _ => return { r with session := r.session.recordFailure exchange }

/-- Ends a run over the given exchanges. -/
def settle (t : Tolerances) (interruption : Option Interruption) (now : ExchangeId → Instant)
    (exchanges : List ExchangeId) (r : SessionRun) : Except Decimal.Overflow SessionRun :=
  exchanges.foldlM (account t interruption now) (r.noteEnd interruption).flush

end SessionRun

/-! ## 4. Whole runs -/

/-- What happens in a session. -/
structure SessionPlan where
  id : Uuid
  startTime : Instant
  exchanges : List ExchangeId
  /-- The tasks that complete, in order. -/
  completions : List Completion
  interruption : Option Interruption
  /-- The clock, as it is read for an exchange that is left over. -/
  now : ExchangeId → Instant
  /-- The clock at the end. -/
  endTime : Instant

/-- The report of a session. -/
def SessionPlan.perform (t : Tolerances) (p : SessionPlan) : Except Decimal.Overflow Report := do
  let run ← p.completions.foldlM (SessionRun.complete t) (.start (.start p.id p.startTime))
  let run ← run.settle t p.interruption p.now p.exchanges
  return .ofSession run.session p.endTime

end Reconciliation
