/-
# Commands

What the application can be told to do.  A command works on a host; it may print a document, and
it may fail after it has printed.

* `Application.perform`: any command;
* `Command.run`: a command with the configuration that it finds;
* `CommandFailure.report`: the words for a failure with everything that caused it.
-/
import Reconciliation.Configuration.Application
import Reconciliation.Host
import Reconciliation.Simulation.Session
import Reconciliation.Text.Endpoint

namespace Reconciliation

/-! ## 1. Commands and failures -/

inductive Command
  /-- One session: a time limit in seconds, whether critical discrepancies are a failure, and
  whether all discrepancies are printed. -/
  | reconcile (timeout : Option Nat) (strict details : Bool)
  /-- Sessions at an interval in seconds, with the address that metrics are asked for at. -/
  | watch (interval : Option Nat) (address : Option String)
  | health
  | showReport (id : Uuid)
  | listReports (limit : Nat)
  /-- Commits the changes in a file, for a reference. -/
  | importChanges (file : String) (reference : Option String)
  | showLedger
  deriving DecidableEq

inductive CommandFailure
  /-- A message and the messages of what caused it, the outermost first. -/
  | failed (message : String) (causes : List String)
  /-- An amount or a number overflowed. -/
  | aborted (operation : Overflow)
  deriving DecidableEq

namespace CommandFailure

/-- The cause of a failure in its place; several causes are numbered. -/
def causeLines (causes : List String) : String :=
  match causes with
  | [] => ""
  | [cause] => "\n\nCaused by:\n    " ++ cause
  | causes => "\n\nCaused by:" ++
    String.join (causes.zipIdx.map fun (cause, i) => s!"\n    {i}: {cause}")

def report : CommandFailure → String
  | .failed message causes => "Error: " ++ message ++ causeLines causes
  | .aborted operation => operation.message

/-- The exit code. -/
def code : CommandFailure → Nat
  | .failed _ _ => 1
  | .aborted _ => 101

/-- A failure of the ledger in the middle of something. -/
def ofLedger (doing : String) : LedgerError → CommandFailure
  | .overflow operation => .aborted operation
  | e => .failed doing [e.message]

def ofReconciliation (e : ReconciliationError) : CommandFailure := .failed e.message []

end CommandFailure

/-! ## 2. The parts of a command -/

/-- A command prints documents, the latest first, and may fail. -/
abbrev CommandM (m : Type → Type) := ExceptT CommandFailure (StateT (List Json) m)

namespace CommandM

variable {m : Type → Type} [Monad m] {α ε : Type}

/-- Takes an action of the host. -/
def ask (action : m α) : CommandM m α := ExceptT.lift (StateT.lift action)

def print (j : Json) : CommandM m Unit := modifyThe (List Json) (j :: ·)

/-- A result, or the failure that an error means. -/
def orFail (failure : ε → CommandFailure) : Except ε α → CommandM m α
  | .ok a => return a
  | .error e => throw (failure e)

end CommandM

open CommandM

variable {m : Type → Type} [Monad m]

/-- A host and what was configured. -/
structure Application (m : Type → Type) where
  host : Host m
  settings : ApplicationSettings

namespace Application

/-- Opens the ledger's journal and replays it. -/
def openLedger (a : Application m) : CommandM m LedgerBook := do
  let path := a.settings.journalPath
  let database ← orFail
    (fun reason => .failed s!"failed to open ledger journal {path}"
      [(LedgerError.storage (.failed reason)).message]) (← ask (a.host.openDatabase path))
  orFail (.ofLedger "failed to replay ledger journal")
    (LedgerBook.replay a.settings.ledgerSettings (← ask a.host.now) database.journal)

def openReports (a : Application m) : CommandM m ReportTable := do
  let path := a.settings.reportsPath
  let database ← orFail
    (fun reason => .failed s!"failed to open report store {path}"
      [(ReconciliationError.storage reason).message]) (← ask (a.host.openDatabase path))
  return database.reports

/-- Keeps what a command made of one part of a database. -/
def keep (a : Application m) (path : String) (change : Database → Database) : CommandM m Unit := do
  match ← ask (a.host.openDatabase path) with
  | .ok d => ask (a.host.writeDatabase path (change d))
  | .error _ => return ()

/-- An engine over the ledger, the report store and all configured exchanges. -/
def openEngine (a : Application m) : CommandM m EngineBench := do
  let book ← a.openLedger
  let reports ← a.openReports
  let venues ← orFail (fun (e : BuildError) => .failed e.message e.causes)
    (← ask (buildVenues a.host.readText a.settings.exchanges).run)
  let exchanges := venues.map fun venue => ⟨venue, none, none⟩
  let bench ← orFail
    (fun fault => .failed "invalid reconciliation configuration"
      [(ReconciliationError.configuration fault).message])
    (EngineBench.new a.settings.engine exchanges (.book book) (.table reports) false)
  return { bench with origin := ← ask a.host.now, sessions := ← ask a.host.sessionNumber }

/-! ## 3. The commands -/

/-- Runs one session and keeps its report. -/
def session (a : Application m) (bench : EngineBench) (limit : Span) : CommandM m Report := do
  let (outcome, bench) := bench.reconcile limit none
  if let .table reports := bench.store then
    a.keep a.settings.reportsPath ({ · with reports })
  match outcome with
  | .refused e => throw (.ofReconciliation e)
  | .broken operation => throw (.aborted operation)
  | .finished r => return r

def reconcile (a : Application m) (timeout : Option Nat)
    (strict details : Bool) : CommandM m Unit := do
  let limit := (timeout.map Span.ofSeconds).getD a.settings.engine.sessionTimeout
  let r ← a.session (← a.openEngine) limit
  let found := [("discrepancies", .array (r.discrepancies.map (·.toJson))),
    ("notes", .array (r.session.notes.map Json.text))]
  print (.object (r.summaryMembers ++ if details then found else []))
  let critical := r.summary.critical
  if strict && 0 < critical then
    throw (.failed s!"reconciliation found {critical} critical discrepancies" [])

/-- One of the sessions that are run at an interval. -/
def watch (a : Application m) (interval : Span) (address : String) : CommandM m Unit := do
  let bench ← a.openEngine
  if !Text.isEndpoint address then
    throw (.failed s!"invalid metrics address {address}" ["invalid socket address syntax"])
  if interval.isZero then
    throw (.ofReconciliation (.configuration (.zeroLimit "schedule interval")))
  let _ ← a.session bench a.settings.engine.sessionTimeout

def health (a : Application m) : CommandM m Unit := do
  let (status, _) := (← a.openEngine).health
  print status.toJson
  if !status.engineReady then throw (.failed "engine is not ready" [])

def showReport (a : Application m) (id : Uuid) : CommandM m Unit := do
  let reports ← a.openReports
  match ← orFail .ofReconciliation (reports.get id) with
  | some r => print r.toJson
  | none => throw (.failed s!"no report stored for session {id}" [])

def listReports (a : Application m) (limit : Nat) : CommandM m Unit := do
  let reports ← a.openReports
  let recent ← orFail .ofReconciliation (reports.recent limit)
  print (.array (recent.map fun r => .object r.summaryMembers))

/-- The reference of changes from a file: what was asked for, or the file's name. -/
def referenceOf (file : String) (reference : Option String) : String :=
  reference.getD ((Path.stem? file).getD "import")

def importChanges (a : Application m) (file : String)
    (reference : Option String) : CommandM m Unit := do
  let book ← a.openLedger
  let text ← orFail (fun reason => .failed s!"failed to read {file}" [reason])
    (← ask (a.host.readText file))
  match (Json.ofText? text).bind (·.asList? LedgerMutation.ofJson?) with
  | none => throw (.failed s!"invalid mutation file {file}" ["unreadable document"])
  | some mutations =>
    let book ← orFail (.ofLedger "ledger rejected the import")
      (book.commit (← ask a.host.now) mutations (referenceOf file reference)
        (← ask a.host.recordIds))
    if let some journal := book.journal then
      a.keep a.settings.journalPath ({ · with journal })
    print (.object [("imported", .ofNat mutations.length), ("version", .ofNat book.latest.version),
      ("sequence", .ofNat book.latest.sequence)])

def showLedger (a : Application m) : CommandM m Unit := do
  print (← a.openLedger).latest.toJson

/-- The pause between two sessions. -/
def intervalOf (a : Application m) (interval : Option Nat) : Span :=
  (interval.map Span.ofSeconds).getD a.settings.interval

/-- Performs a command. -/
def perform (a : Application m) : Command → CommandM m Unit
  | .reconcile timeout strict details => a.reconcile timeout strict details
  | .watch interval address =>
    a.watch (a.intervalOf interval) (address.getD a.settings.metricsAddress)
  | .health => a.health
  | .showReport id => a.showReport id
  | .listReports limit => a.listReports limit
  | .importChanges file reference => a.importChanges file reference
  | .showLedger => a.showLedger

/-- How long to wait before a command is performed again, if it is one that goes on. -/
def pause? (a : Application m) : Command → Option Span
  | .watch interval _ => some (a.intervalOf interval)
  | _ => none

end Application

/-! ## 4. From the configuration on -/

namespace Command

/-- Loads the settings for an environment and gets the log ready. -/
def prepare (host : Host m) (environment : String) (vars : List (String × String)) :
    CommandM m (Application m) := do
  let settings ← orFail
    (fun (e : ApplicationSettings.LoadError) => .failed "failed to load configuration" [e.message])
    (← ask (ApplicationSettings.load host.readText "config" (some environment) vars).run)
  if let some path := settings.logPath then
    orFail (fun reason => .failed "failed to initialize logging"
      [s!"failed to open log file {path}", reason]) (← ask (host.openLog path))
  return ⟨host, settings⟩

/-- What a command printed last, how it failed if it did, and how long to wait before it is
performed again if it goes on. -/
structure Outcome where
  output : Option Json
  failure : Option CommandFailure
  pause : Option Span

/-- Performs a command with the configuration of an environment. -/
def run (host : Host m) (environment : String) (vars : List (String × String))
    (c : Command) : m Outcome := do
  let action : CommandM m (Option Span) := do
    let a ← prepare host environment vars
    a.perform c
    return a.pause? c
  let (result, printed) ← (ExceptT.run action).run []
  return match result with
    | .ok pause => ⟨printed.head?, none, pause⟩
    | .error e => ⟨printed.head?, some e, none⟩

end Command

end Reconciliation
