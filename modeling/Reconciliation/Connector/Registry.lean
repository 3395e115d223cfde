/-
# Connectors by their driver

An exchange is configured with the name of a driver and with parameters that only the driver
understands.  There is one driver, for paper venues; its name is read in any ASCII case.

* `ExchangeSettings.ofJson?`: the driver's name beside its parameters;
* `buildVenues`: one venue for each configured exchange, in the order of their names.
-/
import Reconciliation.Connector.Paper
import Reconciliation.Json.Reader

namespace Reconciliation

/-! ## 1. Settings of an exchange -/

/-- How an exchange is reached. -/
structure ExchangeSettings where
  /-- The driver's name, as it was written. -/
  driver : String
  /-- Everything else that was written, for the driver to read. -/
  parameters : List (String × Json)

namespace ExchangeSettings

def standardDriver : String := "paper"

/-- Reads the driver's name with `text`; the members beside it are the parameters. -/
def ofJson? (text : Json → Option String) : Json → Option ExchangeSettings
  | .object members => do
    let parameters := (Json.distinct members).filter (·.1 != "driver")
    match Json.lookup "driver" members with
    | some driver => return ⟨← text driver, parameters⟩
    | none => return ⟨standardDriver, parameters⟩
  | _ => none

def toJson (s : ExchangeSettings) : Json := .object (("driver", .text s.driver) :: s.parameters)

end ExchangeSettings

/-! ## 2. Parameters of a paper venue -/

structure PaperSettings where
  /-- The path of a document with the account. -/
  fixture : Option String
  /-- The delay of every call, in milliseconds. -/
  latency : Nat
  supportsPositions : Bool
  deriving DecidableEq

namespace PaperSettings

def standard : PaperSettings := ⟨none, 0, true⟩

def ofJson? (j : Json) : Option PaperSettings :=
  j.readRecord do
    return ⟨← .omissible "fixture" Json.asText?,
      ← .defaulted "latency_ms" standard.latency Json.asNat64?,
      ← .defaulted "supports_positions" standard.supportsPositions Json.asBool?⟩

/-- The account in the text of a fixture. -/
def accountOfText (path text : String) : Except ConnectorError AccountBook :=
  match (Json.ofText? text).bind PaperVenue.accountOfJson? with
  | some account => .ok account
  | none => .error ⟨.serialization, s!"invalid fixture {path}"⟩

variable {m : Type → Type} [Monad m]

/-- The account to begin with.  `readText` gives the text of a file, or says why it cannot. -/
def account (readText : String → m (Except String String)) (s : PaperSettings) :
    ExceptT ConnectorError m AccountBook := do
  match s.fixture with
  | none => return .empty
  | some path =>
    match ← readText path with
    | .ok text => accountOfText path text
    | .error reason => throw ⟨.other, s!"failed to read fixture {path}: {reason}"⟩

/-- A venue for an exchange. -/
def venue (readText : String → m (Except String String)) (s : PaperSettings)
    (exchange : ExchangeId) : ExceptT ConnectorError m PaperVenue := do
  let account ← s.account readText
  return { PaperVenue.new exchange with
    account, latency := s.latency, supportsPositions := s.supportsPositions }

end PaperSettings

/-! ## 3. Building -/

/-- Why the configured exchanges cannot all be reached. -/
inductive BuildError
  | noExchange
  | unknownDriver (driver exchange : String)
  | connector (exchange : String) (cause : ConnectorError)
  deriving DecidableEq

/-- The names of all drivers. -/
def driverNames : List String := [PaperVenue.connectorName]

namespace BuildError

def message : BuildError → String
  | .noExchange => "no exchanges configured; add an [exchanges.<name>] section"
  | .unknownDriver driver exchange =>
    s!"unknown driver '{driver}' for exchange {exchange} " ++
      "(available: " ++ ", ".intercalate driverNames ++ ")"
  | .connector exchange _ => s!"failed to build connector for exchange {exchange}"

/-- The messages of what an error was caused by. -/
def causes : BuildError → List String
  | .noExchange => []
  | .unknownDriver _ _ => []
  | .connector _ cause => [cause.message]

end BuildError

variable {m : Type → Type} [Monad m]

/-- The venue of one exchange, whose name becomes its identifier. -/
def buildVenue (readText : String → m (Except String String)) (name : String)
    (s : ExchangeSettings) : ExceptT BuildError m PaperVenue :=
  if String.ofList (s.driver.toList.map Char.toLower) ∈ driverNames then
    match PaperSettings.ofJson? (.object s.parameters) with
    | none => throw (.connector name ⟨.serialization, "invalid paper connector config"⟩)
    | some settings =>
      (settings.venue readText (.of .exchange name)).adapt (.connector name)
  else throw (.unknownDriver s.driver name)

/-- The venues of all exchanges; the first that cannot be built counts. -/
def buildVenues (readText : String → m (Except String String))
    (exchanges : SortedMap String ExchangeSettings) : ExceptT BuildError m (List PaperVenue) :=
  if exchanges.isEmpty then throw .noExchange
  else exchanges.entries.mapM fun (name, s) => buildVenue readText name s

end Reconciliation
