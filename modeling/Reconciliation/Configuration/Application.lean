/-
# Settings of the application

Everything that is configured: the engine and how often it runs, the exchanges, where the ledger
and the reports are kept, and where logs and metrics go.  Everything has a default.

* `ApplicationSettings.ofJson?`: reads settings, scalars as strictly as wanted;
* `ApplicationSettings.load`: puts the layers together and reads them.
-/
import Reconciliation.Configuration.Layer
import Reconciliation.Configuration.Scalar
import Reconciliation.Connector.Registry
import Reconciliation.Ledger.Book
import Reconciliation.Settings
import Reconciliation.Toml.Document

namespace Reconciliation

/-! ## 1. The settings -/

structure ApplicationSettings where
  logLevel : String := "info"
  logPath : Option String := none
  engine : EngineSettings := .standard
  /-- The time between scheduled sessions. -/
  interval : Span := .ofSeconds 60
  /-- How many calls an exchange takes in a second. -/
  requestsPerSecond : Option Nat := none
  exchanges : SortedMap String ExchangeSettings := .empty
  journalPath : String := "./data/ledger.db"
  /-- The asset whose free balance is the available capital, as it was written. -/
  capitalAsset : String := "USDT"
  historyLimit : Nat := 256
  reportsPath : String := "./data/reports.db"
  metricsAddress : String := "127.0.0.1:9100"

instance : Inhabited ApplicationSettings := ⟨{}⟩

namespace ApplicationSettings

/-! ## 2. Reading -/

/-- Reads tolerances, each with a default of its own. -/
def tolerances? (j : Json) : Option Tolerances :=
  j.readRecord do
    let standard := Tolerances.standard
    return ⟨← .defaulted "absolute" standard.absolute Decimal.ofJson?,
      ← .defaulted "relative" standard.relative Decimal.ofJson?,
      ← .defaulted "critical_ratio" standard.criticalRatio Decimal.ofJson?⟩

/-- Reads the settings of the engine and of its schedule. -/
def engine? (r : ScalarReader) (base : ApplicationSettings) (j : Json) :
    Option ApplicationSettings :=
  j.readRecord do
    let e := base.engine
    let span := fun (unit : Nat → Span) name old =>
      Json.RecordReader.defaulted name old fun j => (r.nat64? j).map unit
    let millis := span .ofMillis
    let seconds := span .ofSeconds
    let sessionTimeout ← seconds "session_timeout_secs" e.sessionTimeout
    let callTimeout ← millis "call_timeout_ms" e.callTimeout
    let ledgerTimeout ← millis "ledger_timeout_ms" e.ledgerTimeout
    let healthTimeout ← millis "health_timeout_ms" e.healthTimeout
    let maxRetries ← .defaulted "max_retries" e.retry.maxRetries r.nat32?
    let initialBackoff ← millis "initial_backoff_ms" e.retry.initialBackoff
    let maxBackoff ← millis "max_backoff_ms" e.retry.maxBackoff
    let maxConcurrent ← .defaulted "max_concurrent_collections" e.maxConcurrent r.nat64?
    let interval ← seconds "interval_secs" base.interval
    let requestsPerSecond ← .omissible "requests_per_second" r.nat32?
    let tolerances ← .defaulted "tolerances" e.tolerances tolerances?
    let retry := ⟨maxRetries, initialBackoff, maxBackoff⟩
    return { base with
      interval, requestsPerSecond
      engine := { sessionTimeout, callTimeout, ledgerTimeout, healthTimeout, retry
                  maxConcurrent, tolerances } }

/-- Reads where the ledger is kept. -/
def ledger? (r : ScalarReader) (base : ApplicationSettings) (j : Json) :
    Option ApplicationSettings :=
  j.readRecord do
    let journalPath ← .defaulted "journal_path" base.journalPath r.text?
    let capitalAsset ← .defaulted "capital_asset" base.capitalAsset r.text?
    let historyLimit ← .defaulted "history_limit" base.historyLimit r.nat64?
    return { base with journalPath, capitalAsset, historyLimit }

/-- Reads where reports are kept. -/
def reports? (r : ScalarReader) (base : ApplicationSettings) (j : Json) :
    Option ApplicationSettings :=
  j.readRecord do
    return { base with reportsPath := ← .defaulted "store_path" base.reportsPath r.text? }

/-- Reads all settings. -/
def ofJson? (r : ScalarReader) (j : Json) : Option ApplicationSettings :=
  j.readRecord do
    let standard : ApplicationSettings := {}
    let logLevel ← .defaulted "log_level" standard.logLevel r.text?
    let logPath ← .omissible "log_path" r.text?
    let settings ← .defaulted "reconciliation" standard (engine? r standard)
    let exchanges ← .defaulted "exchanges" []
      (·.asMembers? some (ExchangeSettings.ofJson? r.text?))
    let settings ← .defaulted "ledger" settings (ledger? r settings)
    let settings ← .defaulted "reports" settings (reports? r settings)
    let metricsAddress ← .defaulted "metrics_addr" settings.metricsAddress r.text?
    return { settings with logLevel, logPath, exchanges := .ofList exchanges, metricsAddress }

/-! ## 3. Loading -/

/-- Why there are no settings. -/
inductive LoadError
  | missing (path : String)
  | malformed (path : String)
  | invalid
  deriving DecidableEq

def LoadError.message : LoadError → String
  | .missing path => s!"configuration file \"{path}\" not found"
  | .malformed path => s!"configuration file \"{path}\" is malformed"
  | .invalid => "invalid configuration value"

variable {m : Type → Type} [Monad m]

/-- Adds the layer of a file on top of a tree.  `readText` gives the text of a file. -/
def addFile (readText : String → m (Except String String)) (required : Bool) (path : String)
    (tree : Json) : ExceptT LoadError m Json := do
  match ← readText path with
  | .error _ => if required then throw (.missing path) else return tree
  | .ok text =>
    match Toml.ofText? text with
    | some layer => return Configuration.addLayer tree (Configuration.membersOf layer)
    | none => throw (.malformed path)

/-- Loads settings from a directory and the variables of the environment: the common file, that
of an environment if one is named, and that of the machine, the variables last. -/
def load (readText : String → m (Except String String)) (directory : String)
    (environment : Option String) (vars : List (String × String)) :
    ExceptT LoadError m ApplicationSettings := do
  let path := fun name => s!"{directory}/{name}.toml"
  let tree ← addFile readText true (path "default") (.object [])
  let tree ← match environment with
    | some name => addFile readText false (path name) tree
    | none => pure tree
  let tree ← addFile readText false (path "local") tree
  let tree := Configuration.addLayer tree (Configuration.environmentLayer vars)
  match ofJson? .lenient tree with
  | some settings => return settings
  | none => throw .invalid

/-- The settings of the ledger. -/
def ledgerSettings (s : ApplicationSettings) : LedgerSettings :=
  { capitalAsset := .of .asset s.capitalAsset, historyLimit := s.historyLimit }

end ApplicationSettings

end Reconciliation
