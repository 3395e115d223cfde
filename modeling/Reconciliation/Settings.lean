/-
# Settings of an engine

* `EngineSettings.validate`: the first setting that cannot be worked with, in a fixed order.
-/
import Reconciliation.Compare.Tolerances
import Reconciliation.Retry

namespace Reconciliation

structure EngineSettings where
  /-- The time limit of a session. -/
  sessionTimeout : Span
  /-- The time limit of one call to an exchange. -/
  callTimeout : Span
  /-- The time limit of one read of the ledger. -/
  ledgerTimeout : Span
  /-- The time limit of a health probe. -/
  healthTimeout : Span
  retry : RetryPolicy
  /-- How many exchanges may be collected from at the same time. -/
  maxConcurrent : Nat
  tolerances : Tolerances
  deriving DecidableEq

namespace EngineSettings

def standard : EngineSettings :=
  { sessionTimeout := .ofSeconds 30
    callTimeout := .ofSeconds 5
    ledgerTimeout := .ofSeconds 5
    healthTimeout := .ofSeconds 2
    retry := .standard
    maxConcurrent := 8
    tolerances := .standard }

instance : Inhabited EngineSettings := ⟨standard⟩

/-- The time limits by name. -/
def limits (s : EngineSettings) : List (String × Span) :=
  [("session_timeout", s.sessionTimeout), ("call_timeout", s.callTimeout),
    ("ledger_timeout", s.ledgerTimeout), ("health_timeout", s.healthTimeout)]

def validate (s : EngineSettings) : Except ConfigurationFault Unit :=
  match s.limits.find? (·.2.isZero) with
  | some (name, _) => throw (.zeroLimit name)
  | none =>
    if s.maxConcurrent = 0 then throw .noConcurrency
    else if s.retry.maxBackoff < s.retry.initialBackoff then throw .backoffBeyondMaximum
    else s.tolerances.validate

/-- Reads settings in milliseconds over others. -/
def readOver (base : EngineSettings) (j : Json) : Option EngineSettings :=
  j.readRecord do
    let span := fun name (old : Span) => do
      return ((← Json.RecordReader.omissible name Json.asNat64?).map Span.ofMillis).getD old
    let number := fun name read (old : Nat) => do
      return (← Json.RecordReader.omissible name read).getD old
    let sessionTimeout ← span "session_timeout_ms" base.sessionTimeout
    let callTimeout ← span "call_timeout_ms" base.callTimeout
    let ledgerTimeout ← span "ledger_timeout_ms" base.ledgerTimeout
    let healthTimeout ← span "health_timeout_ms" base.healthTimeout
    let maxRetries ← number "max_retries" Json.asNat32? base.retry.maxRetries
    let initialBackoff ← span "initial_backoff_ms" base.retry.initialBackoff
    let maxBackoff ← span "max_backoff_ms" base.retry.maxBackoff
    let maxConcurrent ← number "max_concurrent_collections" Json.asNat64? base.maxConcurrent
    let tolerances ← .omissible "tolerances" Tolerances.ofJson?
    return { sessionTimeout, callTimeout, ledgerTimeout, healthTimeout, maxConcurrent
             retry := ⟨maxRetries, initialBackoff, maxBackoff⟩
             tolerances := tolerances.getD base.tolerances }

/-- A span in milliseconds, as a word of 64 bits. -/
def millisJson (s : Span) : Json := .ofNat (s.millis % wordCount)

/-- The settings in milliseconds. -/
def members (s : EngineSettings) : List (String × Json) :=
  [("session_timeout_ms", millisJson s.sessionTimeout),
    ("call_timeout_ms", millisJson s.callTimeout),
    ("ledger_timeout_ms", millisJson s.ledgerTimeout),
    ("health_timeout_ms", millisJson s.healthTimeout),
    ("max_retries", .ofNat s.retry.maxRetries),
    ("initial_backoff_ms", millisJson s.retry.initialBackoff),
    ("max_backoff_ms", millisJson s.retry.maxBackoff),
    ("max_concurrent_collections", .ofNat s.maxConcurrent),
    ("tolerances", s.tolerances.toJson)]

end EngineSettings

end Reconciliation
