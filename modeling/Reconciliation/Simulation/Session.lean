/-
# Sessions and schedules in virtual time

A simulated session runs its collections and its read of the ledger, each on its own timeline,
up to the earliest of its interruptions, and hands what completed to the session in the order of
time.

* `EngineBench.reconcile`: one session;
* `EngineBench.schedule`: sessions at an interval, until a shutdown.
-/
import Reconciliation.Session.Delivery
import Reconciliation.Session.Run
import Reconciliation.Simulation.Bench

namespace Reconciliation
namespace EngineBench

/-! ## 1. The tasks of a session -/

/-- What the tasks of a session come to before a horizon. -/
structure TaskResults where
  exchanges : SortedMap ExchangeId SimulatedExchange
  ledger : SimulatedLedger
  /-- The completed tasks with their times, not in order. -/
  completions : List (Nat × Completion)
  /-- Whether a task was cut off. -/
  unfinished : Bool
  /-- The time of the last completed task. -/
  last : Nat

/-- A free place for another collection: now, or when the first of the running ones ends. -/
def placeAt (start places : Nat) (ends : List Nat) : Nat × List Nat :=
  match ends with
  | [] => (start, [])
  | e :: rest =>
    if ends.length < places then (start, ends)
    else
      let first := rest.foldl min e
      (first, ends.erase first)

/-- Runs the collections in the order of their exchanges, a bounded number at a time. -/
def runCollections (s : EngineSettings) (wall : Nat → Instant) (start horizon : Nat)
    (ends : List Nat) (results : TaskResults) : List (ExchangeId × SimulatedExchange) → TaskResults
  | [] => results
  | (id, e) :: rest =>
    let (place, ends) := placeAt start s.maxConcurrent ends
    if horizon ≤ place then { results with unfinished := true }
    else
      let (outcome, e, time) := e.collect s wall place horizon
      let results := { results with exchanges := results.exchanges.insert id e }
      let results := match outcome with
        | .ok snapshot =>
          { results with
            completions := results.completions ++ [(time, .collected snapshot)]
            last := max results.last time }
        | .error .broken =>
          { results with
            completions := results.completions ++ [(time, .lost)]
            last := max results.last time }
        | .error .cutOff => { results with unfinished := true }
      runCollections s wall start horizon (time :: ends) results rest

/-- Runs all tasks of a session up to a horizon. -/
def runTasks (b : EngineBench) (horizon : Nat) : TaskResults :=
  let (read, t) := b.ledger.read b.settings (b.wall b.now) b.now horizon
  let completions := match read with
    | .ok (.ok snapshot) => [(t.now, Completion.ledgerRead snapshot)]
    | .ok (.error e) => [(t.now, .ledgerFailed e)]
    | .error .broken => [(t.now, .lost)]
    | .error .cutOff => []
  let results : TaskResults :=
    { exchanges := b.exchanges, ledger := t.world, completions
      unfinished := completions.isEmpty, last := if completions.isEmpty then b.now else t.now }
  runCollections b.settings b.wall b.now horizon [] results b.exchanges.entries

/-! ## 2. One session -/

/-- How a session ends. -/
inductive SessionEnd
  /-- There was no session. -/
  | refused (error : ReconciliationError)
  /-- An amount overflowed during a comparison. -/
  | broken (operation : Decimal.Overflow)
  | finished (report : Report)

/-- The tag in the ids of sessions. -/
def sessionTag : Nat := 0x73657373696f

/-- When the session is interrupted at the latest, and by what. -/
def interruptionAt (now : Nat) (limit : Span) (cancelAfter : Option Nat) : Nat × Interruption :=
  match cancelAfter with
  | some n =>
    if n ≤ limit.millis then (now + n, .cancelled) else (now + limit.millis, .deadline limit)
  | none => (now + limit.millis, .deadline limit)

/-- The sink of the bench. -/
def sink : ReportSink (StateM EngineBench) where
  publish r := do
    let b ← get
    set { b with published := r :: b.published }
    return if b.failingSink then .error (.storage "sink failure") else .ok ()
  escalate _ critical := do
    let b ← get
    set { b with escalated := critical :: b.escalated }
    return if b.failingSink then .error (.storage "sink failure") else .ok ()

/-- Stores a report in the bench's store. -/
def storeReport (r : Report) : StateM EngineBench StoreOutcome := do
  let b ← get
  match b.store.append r with
  | .ok store =>
    set { b with store }
    return .stored
  | .error e => return .refused e

/-- The bench after the tasks of a session, at a time. -/
def afterTasks (b : EngineBench) (results : TaskResults) (time : Nat) : EngineBench :=
  { b with exchanges := results.exchanges, ledger := results.ledger, now := time
           sessions := b.sessions + 1 }

/-- The time of the first completion that overflows. -/
def overflowTime (t : Tolerances) (run : SessionRun) (now : Nat) :
    List (Nat × Completion) → Nat
  | [] => now
  | (time, c) :: rest =>
    match run.complete t c with
    | .ok run => overflowTime t run time rest
    | .error _ => time

/-- Runs one session with a time limit; it is cancelled after some milliseconds, if given. -/
def reconcile (b : EngineBench) (limit : Span) (cancelAfter : Option Nat) :
    SessionEnd × EngineBench :=
  if limit.isZero then (.refused (.configuration (.zeroLimit "session timeout")), b)
  else if cancelAfter = some 0 then (.refused .cancelled, b)
  else
    let (horizon, interruption) := interruptionAt b.now limit cancelAfter
    let results := b.runTasks horizon
    let done := results.completions.mergeSort fun x y => x.1 ≤ y.1
    let time := if results.unfinished then horizon else results.last
    let id := Uuid.stamped sessionTag b.sessions
    let plan : SessionPlan :=
      { id, startTime := b.wall b.now, exchanges := b.exchanges.keys, completions := done.map (·.2)
        interruption := if results.unfinished then some interruption else none
        now := fun _ => b.wall time, endTime := b.wall time }
    match plan.perform b.settings.tolerances with
    | .error operation =>
      let time := overflowTime b.settings.tolerances (.start (.start id (b.wall b.now))) b.now done
      (.broken operation, b.afterTasks (b.runTasks (time + 1)) time)
    | .ok report =>
      let issue : StateM EngineBench Report := report.issue (some storeReport) [sink]
      let (report, b) := issue.run (b.afterTasks results time)
      (.finished report, b)

/-! ## 3. Schedules -/

/-- How late a tick may come and still keep the grid, in milliseconds. -/
def tickSlack : Nat := 5

/-- When the tick after one is due that was due at `due` and came at `now`: an interval later,
counted from when it came if that was late. -/
def nextTick (interval due now : Nat) : Nat :=
  if due + tickSlack < now then now + interval else due + interval

/-- Runs a session at each tick before the shutdown.  The number of sessions is bounded by `fuel`,
which no interval can use up. -/
def runSchedule (interval shutdown : Nat) : Nat → Nat → EngineBench → EngineBench
  | 0, _, b => b
  | fuel + 1, due, b =>
    let time := max due b.now
    if shutdown ≤ time then b
    else
      let b := { b with now := time }
      match b.reconcile b.settings.sessionTimeout (some (shutdown - time)) with
      | (.finished _, b) => runSchedule interval shutdown fuel (nextTick interval due time) b
      | (.refused _, b) => b
      | (.broken _, b) => b

/-- Sessions at an interval for some milliseconds. -/
def schedule (b : EngineBench) (interval duration : Nat) :
    Except ConfigurationFault EngineBench :=
  if interval = 0 then .error (.zeroLimit "schedule interval")
  else
    let shutdown := b.now + duration
    .ok { runSchedule interval shutdown (duration + 1) b.now b with now := shutdown }

end EngineBench
end Reconciliation
