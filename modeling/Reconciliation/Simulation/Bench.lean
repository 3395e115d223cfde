/-
# Simulated engines

An engine in virtual time: exchanges on paper, a ledger that is a book or follows a script, a
store and a sink.  The bench holds all of it between the sessions.

* `CollectionTask.run`: the collection from one exchange;
* `SimulatedLedger.read`: a read of the ledger;
* `EngineBench.health`: the probes of all capabilities.
-/
import Reconciliation.Connector.Paper
import Reconciliation.Health
import Reconciliation.Ledger.Book
import Reconciliation.Session.Store
import Reconciliation.Simulation.Timeline

namespace Reconciliation

/-! ## 1. Probes -/

/-- What a probe does: it waits, then breaks off, fails, or answers with two flags. -/
structure ProbeScript where
  delay : Nat
  breaks : Bool
  /-- The message of a failure. -/
  error : Option String
  healthy : Bool
  /-- Whether an exchange is connected, or a ledger is running. -/
  flag : Bool

/-- How long a probe takes, and what comes of it. -/
def ProbeScript.run (limit : Span) (flagName : String) (p : ProbeScript) : Nat × ProbeOutcome :=
  if limit.millis < p.delay then (limit.millis, .timedOut)
  else
    (p.delay,
      if p.breaks then .panicked
      else
        match p.error with
        | some message => .unreachable message
        | none => .ofFlags p.healthy flagName p.flag)

/-! ## 2. Exchanges -/

structure SimulatedExchange where
  venue : PaperVenue
  /-- A script for the health probe; otherwise the venue answers for itself. -/
  probe : Option ProbeScript
  /-- The category whose call breaks the collection off. -/
  breaksOn : Option Category

namespace SimulatedExchange

/-- A call to the venue with a time limit. -/
def call (limit : Span) (c : Category) :
    Timeline PaperVenue (Option (Except ConnectorError CategoryState)) := do
  let t ← get
  let (delay, fault, venue) := t.world.beginCall c t.now
  set { t with world := venue }
  Timeline.within limit delay do return (← get).world.answer c fault

/-- Fetches the categories from a time on, each on its own timeline: the results that came in
before the horizon, the venue afterwards, and the time of the last result. -/
def fetchAll (s : EngineSettings) (start : Nat) (horizon : Nat) (venue : PaperVenue) :
    List Category →
    List (Category × Except Stop (Except ReconciliationError CategoryState)) × PaperVenue × Nat
  | [] => ([], venue, start)
  | c :: rest =>
    let activity := fetch s venue.exchange c (call s.callTimeout c) Timeline.wait
    let (result, t) := activity.start venue start (some horizon)
    let (results, venue, last) := fetchAll s start horizon t.world rest
    ((c, result) :: results, venue, max t.now last)

/-- Begins the calls before the one that breaks off; nothing more comes of them. -/
def beginCalls (start : Nat) (venue : PaperVenue) (categories : List Category) : PaperVenue :=
  categories.foldl (fun v c => (v.beginCall c start).2.2) venue

/-- The results, if all of them came in. -/
def allResults (results : List (Category × Except Stop α)) : Except Stop (List (Category × α)) :=
  results.mapM fun (c, r) => r.map (c, ·)

/-- Collects from the exchange from a time on.  `wall` tells the time of a millisecond. -/
def collect (s : EngineSettings) (wall : Nat → Instant) (start horizon : Nat)
    (e : SimulatedExchange) : Except Stop ExchangeSnapshot × SimulatedExchange × Nat :=
  let categories := Category.supported e.venue.supportsPositions
  match e.breaksOn.filter (· ∈ categories) with
  | some broken =>
    let venue := beginCalls start e.venue (categories.takeWhile (· ≠ broken))
    (.error .broken, { e with venue }, start)
  | none =>
    let (results, venue, last) := fetchAll s start horizon e.venue categories
    let snapshot := (allResults results).map (.ofFetches e.venue.exchange (wall last) ·)
    (snapshot, { e with venue }, last)

/-- The probe of the exchange. -/
def health (limit : Span) (e : SimulatedExchange) : Nat × ProbeOutcome :=
  match e.probe with
  | some p => p.run limit "connected"
  | none => (0, .ofFlags e.venue.connected "connected" e.venue.connected)

end SimulatedExchange

/-! ## 3. Ledgers -/

/-- What a read of a scripted ledger does: it waits, then breaks off, fails, or answers.  Without
a state it answers with an empty ledger of the very time that was asked for. -/
structure ReadScript where
  delay : Nat
  breaks : Bool
  error : Option LedgerError
  state : Option LedgerState

instance : Inhabited ReadScript := ⟨0, false, none, none⟩

inductive SimulatedLedger
  | book (book : LedgerBook)
  /-- The reads that are left, the last of which repeats, and the probe. -/
  | scripted (reads : List ReadScript) (probe : Option ProbeScript)

namespace SimulatedLedger

/-- Drops a read that has been used, unless it is the last one. -/
def advance : List ReadScript → List ReadScript
  | _ :: next :: rest => next :: rest
  | reads => reads

/-- A read as of an instant, with a time limit. -/
def call (limit : Span) (time : Instant) :
    Timeline SimulatedLedger (Option (Except LedgerError LedgerState)) := do
  let t ← get
  match t.world with
  | .book b => return some (b.viewAt time)
  | .scripted reads probe =>
    let read := reads.headD default
    set { t with world := SimulatedLedger.scripted (advance reads) probe }
    Timeline.within limit read.delay do
      if read.breaks then throw .broken
      else
        match read.error with
        | some e => return .error e
        | none => return .ok (read.state.getD (.genesis time))

/-- Reads what the ledger expected at an instant, from a time on. -/
def read (s : EngineSettings) (time : Instant) (start horizon : Nat) (l : SimulatedLedger) :
    Except Stop (Except ReconciliationError LedgerSnapshot) × Timed SimulatedLedger :=
  (readExpected s time (call s.ledgerTimeout time) Timeline.wait).start l start (some horizon)

/-- The probe of the ledger.  A book also adds up its capital, which may break the probe off. -/
def health (limit : Span) : SimulatedLedger → Nat × ProbeOutcome
  | .book b =>
    (0, match b.availableCapital with
      | .ok _ => .ofFlags b.health.healthy "running" b.health.running
      | .error _ => .panicked)
  | .scripted _ (some p) => p.run limit "running"
  | .scripted _ none => (0, .ofFlags true "running" true)

end SimulatedLedger

/-! ## 4. The bench -/

inductive SimulatedStore
  | map (reports : ReportMap)
  | table (reports : ReportTable)
  /-- A store that takes nothing. -/
  | failing

namespace SimulatedStore

def append (s : SimulatedStore) (r : Report) : Except ReconciliationError SimulatedStore :=
  match s with
  | .map m => (m.append r).map .map
  | .table t => (t.append r).map .table
  | .failing => .error (.storage "store failure")

/-- The report of a session, if the store has one. -/
def get? (s : SimulatedStore) (id : Uuid) : Option Report :=
  match s with
  | .map m => m.get id
  | .table t => (t.get id).toOption.join
  | .failing => none

end SimulatedStore

/-- The first instant of a simulation that is not told another one. -/
def simulationStart : Instant :=
  { Instant.epoch with seconds := 1767225600, leap_at_end := by decide }

structure EngineBench where
  /-- The instant at which the time is zero. -/
  origin : Instant := simulationStart
  settings : EngineSettings
  exchanges : SortedMap ExchangeId SimulatedExchange
  ledger : SimulatedLedger
  store : SimulatedStore
  /-- Whether the sink answers with errors; it takes reports all the same. -/
  failingSink : Bool
  /-- The reports that the sink took, the latest first. -/
  published : List Report
  /-- The discrepancies that the sink was told of, the latest report first. -/
  escalated : List (List Discrepancy)
  /-- The time, in milliseconds. -/
  now : Nat
  /-- The number of the next session. -/
  sessions : Nat

namespace EngineBench

/-- The instant of a millisecond. -/
def wall (b : EngineBench) (ms : Nat) : Instant := b.origin.addNanos (ms * 1000000)

/-- An engine over exchanges, each of which may occur once. -/
def new (settings : EngineSettings) (exchanges : List SimulatedExchange)
    (ledger : SimulatedLedger) (store : SimulatedStore) (failingSink : Bool) :
    Except ConfigurationFault EngineBench := do
  settings.validate
  if exchanges.isEmpty then throw .noExchange
  else
    let add := fun (m : SortedMap ExchangeId SimulatedExchange) (e : SimulatedExchange) =>
      if m.contains e.venue.exchange then throw (.repeatedExchange e.venue.exchange.text)
      else return m.insert e.venue.exchange e
    let exchanges ← exchanges.foldlM add .empty
    return { settings, exchanges, ledger, store, failingSink, published := [], escalated := []
             now := 0, sessions := 0 }

/-- Probes everything at once: the verdict, and how long it takes. -/
def health (b : EngineBench) : HealthStatus × Nat :=
  let limit := b.settings.healthTimeout
  let ledger := b.ledger.health limit
  let exchanges := b.exchanges.mapValues fun _ e => e.health limit
  let config := match b.settings.validate with
    | .ok () => .ready
    | .error fault => .notReady (ReconciliationError.configuration fault).message
  (.ofProbes ⟨config, ledger.2, exchanges.mapValues fun _ p => p.2⟩,
    (ledger.1 :: exchanges.values.map (·.1)).foldl max 0)

end EngineBench

end Reconciliation
