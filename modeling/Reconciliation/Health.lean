/-
# Health of an engine

Each capability is probed on its own; the verdict combines the probes.

* `HealthStatus.ofProbes`: ready if the settings are valid, the ledger is ready and at least one
  exchange is connected.
-/
import Reconciliation.SortedMap
import Reconciliation.Identifier
import Reconciliation.Json.Record

namespace Reconciliation

/-- What came of a probe. -/
inductive ProbeOutcome
  | ready
  /-- The probe answered that the capability is not available. -/
  | notReady (reason : String)
  /-- The probe itself failed. -/
  | unreachable (reason : String)
  | timedOut
  deriving DecidableEq, Repr

namespace ProbeOutcome

def isReady (o : ProbeOutcome) : Bool := o = .ready

/-- The probe of a capability that answered with two flags, the names of which are given. -/
def ofFlags (healthy : Bool) (name : String) (flag : Bool) : ProbeOutcome :=
  if healthy && flag then .ready else .notReady s!"healthy={healthy}, {name}={flag}"

/-- A probe that broke off. -/
def panicked : ProbeOutcome := .unreachable "health probe panicked"

def ofJson? (j : Json) : Option ProbeOutcome :=
  j.readRecord do
    let noDetail : Json.RecordReader (Option Unit) := .optional "detail" fun _ => none
    let detail : Json.RecordReader String := .required "detail" Json.asText?
    match ← .required "state" Json.asText? with
    | "ready" => do
      let _ ← noDetail
      return .ready
    | "not_ready" => return .notReady (← detail)
    | "unreachable" => return .unreachable (← detail)
    | "timed_out" => do
      let _ ← noDetail
      return .timedOut
    | _ => fun _ => none

def toJson : ProbeOutcome → Json
  | .ready => .object [("state", .text "ready")]
  | .notReady reason => .object [("state", .text "not_ready"), ("detail", .text reason)]
  | .unreachable reason => .object [("state", .text "unreachable"), ("detail", .text reason)]
  | .timedOut => .object [("state", .text "timed_out")]

end ProbeOutcome

structure HealthProbes where
  config : ProbeOutcome
  ledger : ProbeOutcome
  exchanges : SortedMap ExchangeId ProbeOutcome
  deriving DecidableEq

namespace HealthProbes

def ofJson? (j : Json) : Option HealthProbes :=
  j.readRecord do
    let config ← .required "config" ProbeOutcome.ofJson?
    let ledger ← .required "ledger" ProbeOutcome.ofJson?
    let exchanges ← .required "exchanges"
      (·.asMembers? (Identifier.ofText? .exchange) ProbeOutcome.ofJson?)
    return ⟨config, ledger, .ofList exchanges⟩

def toJson (p : HealthProbes) : Json :=
  .object [
    ("config", p.config.toJson),
    ("ledger", p.ledger.toJson),
    ("exchanges", .object (p.exchanges.entries.map fun (e, o) => (e.text, o.toJson)))]

end HealthProbes

structure HealthStatus where
  engineReady : Bool
  ledgerReady : Bool
  exchangeConnected : SortedMap ExchangeId Bool
  probes : HealthProbes
  deriving DecidableEq

namespace HealthStatus

def ofProbes (p : HealthProbes) : HealthStatus :=
  let connected := p.exchanges.mapValues fun _ o => o.isReady
  { engineReady := p.config.isReady && p.ledger.isReady && connected.values.any id
    ledgerReady := p.ledger.isReady
    exchangeConnected := connected
    probes := p }

def toJson (s : HealthStatus) : Json :=
  .object [
    ("engine_ready", .bool s.engineReady),
    ("ledger_ready", .bool s.ledgerReady),
    ("exchange_connected",
      .object (s.exchangeConnected.entries.map fun (e, b) => (e.text, .bool b))),
    ("probes", s.probes.toJson)]

end HealthStatus

end Reconciliation
