/-
# Scenarios in JSON

A scenario describes a simulated engine: its settings, its exchanges with their faults and
scripts, a ledger and a store.

* `Scenario.ofJson?`: reads one;
* `Scenario.bench`: the bench that it describes, or why there is none.
-/
import Reconciliation.Connector.Change
import Reconciliation.Simulation.Bench

namespace Reconciliation

/-! ## 1. Scripts -/

/-- Reads an error that is given by its kind and its reason. -/
def scriptedError? (read : String → String → Option ε) (j : Json) : Option ε := do
  let (kind, reason) ← j.readRecord do
    return (← .required "kind" Json.asText?, ← .defaulted "message" "" Json.asText?)
  read kind reason

/-- Reads a probe; its second flag has a name, and its failure comes down to a message. -/
def ProbeScript.ofJson? (flagName : String) (failure : String → String → Option String)
    (j : Json) : Option ProbeScript :=
  j.readRecord do
    return { delay := ← .defaulted "delay_ms" 0 Json.asNat64?
             breaks := ← .defaulted "panic" false Json.asBool?
             error := ← .omissible "error" (scriptedError? failure)
             healthy := ← .defaulted "healthy" true Json.asBool?
             flag := ← .defaulted flagName true Json.asBool? }

def ReadScript.ofJson? (j : Json) : Option ReadScript :=
  j.readRecord do
    return { delay := ← .defaulted "delay_ms" 0 Json.asNat64?
             breaks := ← .defaulted "panic" false Json.asBool?
             error := ← .omissible "error" (scriptedError? (some <| LedgerError.ofKind · ·))
             state := ← .omissible "state" LedgerState.ofJson? }

/-! ## 2. Parts of a bench -/

/-- Reads an exchange; a fault of an unknown kind is not read. -/
def SimulatedExchange.ofJson? (j : Json) : Option SimulatedExchange := do
  let failure := fun kind reason => (ConnectorError.ofName? kind reason).map (·.message)
  let (id, supportsPositions, probe, breaksOn, change) ← j.readRecord do
    return (← .required "id" (Identifier.ofJson? .exchange),
      ← .omissible "supports_positions" Json.asBool?,
      ← .omissible "health" (ProbeScript.ofJson? "connected" failure),
      ← .omissible "panic_on" Category.ofJson?, ← VenueChange.reader)
  let venue := { PaperVenue.new id with supportsPositions := supportsPositions.getD true }
  match change.apply venue with
  | (some _, venue) => return { venue, probe, breaksOn }
  | (none, _) => none

/-- What a ledger starts from: changes that a book commits at once, or a script. -/
inductive LedgerSeed
  | book (mutations : List LedgerMutation) (historyLimit : Option Nat)
  | script (reads : List ReadScript) (probe : Option ProbeScript)

namespace LedgerSeed

def ofJson? (j : Json) : Option LedgerSeed :=
  j.readRecord do
    let mutations ← .defaulted "mutations" [] (·.asList? LedgerMutation.ofJson?)
    let limit ← .omissible "history_limit" Json.asNat64?
    let reads ← .omissible "reads" (·.asList? ReadScript.ofJson?)
    let failure := fun kind reason => some (LedgerError.ofKind kind reason).message
    let probe ← .omissible "health" (ProbeScript.ofJson? "running" failure)
    return match reads with
      | some reads => script reads probe
      | none => book mutations limit

/-- The ledger at an instant. -/
def ledger (time : Instant) : LedgerSeed → Except LedgerError SimulatedLedger
  | book mutations limit => do
    let standard : LedgerSettings := {}
    let settings := { standard with historyLimit := limit.getD standard.historyLimit }
    return .book (← (LedgerBook.fresh settings time).commit time mutations "")
  | script reads probe => return .scripted reads probe

end LedgerSeed

/-- An empty store of a kind that is given by name. -/
def SimulatedStore.ofName? : String → Option SimulatedStore
  | "memory" => some (.map .empty)
  | "sqlite" => some (.table .empty)
  | "failing" => some .failing
  | _ => none

/-! ## 3. Scenarios -/

structure Scenario where
  settings : EngineSettings
  exchanges : List SimulatedExchange
  ledger : LedgerSeed
  store : SimulatedStore
  failingSink : Bool

namespace Scenario

/-- Reads a scenario.  A limit on the calls in a second is allowed; it is not simulated. -/
def ofJson? (j : Json) : Option Scenario :=
  j.readRecord do
    let settings ← .omissible "config" (EngineSettings.readOver .standard)
    let exchanges ← .required "exchanges" (·.asList? SimulatedExchange.ofJson?)
    let ledger ← .omissible "ledger" LedgerSeed.ofJson?
    let _ ← .omissible "requests_per_second" Json.asNat32?
    let store ← .omissible "store" fun j => j.asText?.bind SimulatedStore.ofName?
    let failingSink ← .defaulted "failing_sink" false Json.asBool?
    return { settings := settings.getD .standard, exchanges, ledger := ledger.getD (.book [] none)
             store := store.getD (.map .empty), failingSink }

/-- The bench of a scenario. -/
def bench (s : Scenario) : Except ReconciliationError EngineBench := do
  let ledger ← (s.ledger.ledger simulationStart).mapError .ledger
  (EngineBench.new s.settings s.exchanges ledger s.store s.failingSink).mapError .configuration

end Scenario

end Reconciliation
