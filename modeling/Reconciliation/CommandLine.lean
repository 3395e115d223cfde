/-
# Command lines

A command line names a command in one or two words.  Options belong to the word before them; they
are long (`--name value`, `--name=value`), or short and may then share one hyphen.  Words after
`--` are never options.  The line is read from left to right, and the first word that settles
what happens counts: help and the version win over everything that would be missing later on.

* `CommandLine.read`: the words of a line against a grammar;
* `CommandLine.parse`: a line of the application.
-/
import Reconciliation.Command

namespace Reconciliation
namespace CommandLine

/-! ## 1. Grammars -/

/-- What a line can ask to be told. -/
inductive Topic
  | help
  | version
  deriving DecidableEq

inductive OptionKind
  /-- Shows help or the version; nothing else happens then. -/
  | information (topic : Topic)
  /-- May be given once. -/
  | flag
  /-- May be given any number of times. -/
  | repeated
  /-- Takes a value, which has to pass a check; may be given once. -/
  | valued (check : String → Bool)

structure OptionRule where
  name : String
  short : Option Char := none
  kind : OptionKind

/-- The options of a word, and what may follow it: one of several words, or operands with a check
for each. -/
inductive Grammar
  | mk (options : List OptionRule) (operands : List (String → Bool))
      (words : List (String × Grammar))

namespace Grammar

def options : Grammar → List OptionRule
  | .mk options _ _ => options

def operands : Grammar → List (String → Bool)
  | .mk _ operands _ => operands

def words : Grammar → List (String × Grammar)
  | .mk _ _ words => words

def word? (g : Grammar) (name : String) : Option Grammar := g.words.lookup name

end Grammar

/-- What was read of a line. -/
structure Invocation where
  /-- The words that name the command. -/
  words : List String
  /-- The options with their values; one without a value has an empty one. -/
  options : List (String × String)
  operands : List String

def Invocation.value? (i : Invocation) (name : String) : Option String := i.options.lookup name

def Invocation.has (i : Invocation) (name : String) : Bool := (i.value? name).isSome

/-- What comes of a line. -/
inductive Outcome (α : Type)
  /-- The line is wrong. -/
  | usage
  | information (topic : Topic)
  | invocation (a : α)

/-! ## 2. Reading -/

/-- Where reading stands: what was read after the last word, the rule whose value is missing, and
whether options are over. -/
structure Reader where
  grammar : Grammar
  done : Invocation
  /-- The options since the last word. -/
  given : List String
  pending : Option OptionRule
  trailing : Bool

namespace Reader

def start (g : Grammar) : Reader := ⟨g, ⟨[], [], []⟩, [], none, false⟩

/-- Gives an option a value. -/
def addOption (r : Reader) (name value : String) : Reader :=
  { r with
    done := { r.done with options := r.done.options ++ [(name, value)] }
    given := name :: r.given, pending := none }

/-- Takes an option with the value that is attached to it, if there is one. -/
def takeOption (r : Reader) (rule : OptionRule) (attached : Option String) : Outcome Reader :=
  match rule.kind, attached with
  | .information topic, none => .information topic
  | .flag, none =>
    if rule.name ∈ r.given then .usage else .invocation (r.addOption rule.name "")
  | .repeated, none => .invocation (r.addOption rule.name "")
  | .valued check, some v =>
    if rule.name ∈ r.given then .usage
    else if check v then .invocation (r.addOption rule.name v)
    else .usage
  | .valued _, none =>
    if rule.name ∈ r.given then .usage else .invocation { r with pending := some rule }
  | _, some _ => .usage

/-- Takes short options that share a hyphen.  The rest after one that takes a value is its value,
also behind an equals sign. -/
def takeShort (r : Reader) : List Char → Outcome Reader
  | [] => .invocation r
  | c :: rest =>
    match r.grammar.options.find? (·.short = some c) with
    | none => .usage
    | some rule =>
      match rule.kind, rest with
      | .valued _, '=' :: v => r.takeOption rule (some (String.ofList v))
      | .valued _, c :: v => r.takeOption rule (some (String.ofList (c :: v)))
      | _, rest =>
        match r.takeOption rule none with
        | .invocation r => takeShort r rest
        | outcome => outcome

/-- Takes a long option, with a value behind an equals sign. -/
def takeLong (r : Reader) (cs : List Char) : Outcome Reader :=
  let name := String.ofList (cs.takeWhile (· ≠ '='))
  match r.grammar.options.find? (·.name = name), cs.dropWhile (· ≠ '=') with
  | none, _ => .usage
  | some rule, [] => r.takeOption rule none
  | some rule, _ :: v => r.takeOption rule (some (String.ofList v))

/-- Takes a word that is no option. -/
def takePlain (r : Reader) (s : String) : Outcome Reader :=
  match r.grammar.operands[r.done.operands.length]? with
  | some check =>
    if check s then
      .invocation { r with done := { r.done with operands := r.done.operands ++ [s] } }
    else .usage
  | none => .usage

/-- Enters a word of the grammar. -/
def enter (r : Reader) (name : String) (g : Grammar) : Reader :=
  { r with grammar := g, given := [], done := { r.done with words := r.done.words ++ [name] } }

/-- Takes one argument. -/
def step (r : Reader) (s : String) : Outcome Reader :=
  match r.pending, s.toList with
  | some _, '-' :: _ :: _ => .usage
  | some rule, _ => { r with pending := none }.takeOption rule (some s)
  | none, cs =>
    if r.trailing then r.takePlain s
    else
      match r.grammar.word? s, cs with
      | some g, _ => .invocation (r.enter s g)
      | none, ['-', '-'] => .invocation { r with trailing := true }
      | none, '-' :: '-' :: rest => r.takeLong rest
      | none, '-' :: c :: rest => r.takeShort (c :: rest)
      | none, _ => r.takePlain s

/-- What a line comes to that ends here. -/
def finish (r : Reader) : Outcome Invocation :=
  if r.pending.isSome || !r.grammar.words.isEmpty ||
      r.done.operands.length < r.grammar.operands.length then .usage
  else .invocation r.done

end Reader

/-- Whether words lead to a place in a grammar, and help for it can be shown.  Help itself is such a
place, and nothing follows it. -/
def hasHelp (g : Grammar) : List String → Bool
  | [] => true
  | name :: rest =>
    match g.word? name with
    | some g => hasHelp g rest
    | none => name = "help" && !g.words.isEmpty && rest.isEmpty

/-- Reads arguments.  The word `help` asks for help wherever another word may stand. -/
def readFrom (r : Reader) : List String → Outcome Invocation
  | [] => r.finish
  | s :: rest =>
    if s = "help" && r.pending.isNone && !r.trailing && !r.grammar.words.isEmpty then
      if hasHelp r.grammar rest then .information .help else .usage
    else
      match r.step s with
      | .invocation r => readFrom r rest
      | .information topic => .information topic
      | .usage => .usage

def read (g : Grammar) (arguments : List String) : Outcome Invocation :=
  readFrom (.start g) arguments

/-! ## 3. The application's lines -/

def isNat64 (s : String) : Bool := (Text.readNat64? s).isSome

def isUuid (s : String) : Bool := (Uuid.ofText? s).isSome

def anyText (_ : String) : Bool := true

def help : OptionRule := ⟨"help", some 'h', .information .help⟩

/-- A word that other words follow. -/
def group (words : List (String × Grammar)) : Grammar := .mk [help] [] words

/-- A word at the end, with its options and operands. -/
def leaf (options : List OptionRule) (operands : List (String → Bool)) : Grammar :=
  .mk (help :: options) operands []

def grammar : Grammar :=
  .mk
    [help, ⟨"version", some 'V', .information .version⟩, ⟨"verbose", some 'v', .repeated⟩,
      ⟨"env", none, .valued anyText⟩]
    []
    [("reconcile", group [
        ("run", leaf [⟨"timeout", none, .valued isNat64⟩, ⟨"strict", none, .flag⟩,
          ⟨"details", none, .flag⟩] []),
        ("watch", leaf [⟨"interval", none, .valued isNat64⟩,
          ⟨"metrics-addr", none, .valued anyText⟩] [])]),
      ("health", leaf [] []),
      ("report", group [
        ("show", leaf [] [isUuid]),
        ("list", leaf [⟨"limit", none, .valued isNat64⟩] [])]),
      ("ledger", group [
        ("import", leaf [⟨"reference", none, .valued anyText⟩] [(· ≠ "")]),
        ("show", leaf [] [])])]

/-- The value of a numeric option. -/
def natValue? (i : Invocation) (name : String) : Option Nat :=
  (i.value? name).bind Text.readNat64?

/-- The command of a line. -/
def commandOf? (i : Invocation) : Option Command :=
  match i.words, i.operands with
  | ["reconcile", "run"], _ =>
    some (.reconcile (natValue? i "timeout") (i.has "strict") (i.has "details"))
  | ["reconcile", "watch"], _ =>
    some (.watch (natValue? i "interval") (i.value? "metrics-addr"))
  | ["health"], _ => some .health
  | ["report", "show"], [id] => (Uuid.ofText? id).map .showReport
  | ["report", "list"], _ => some (.listReports ((natValue? i "limit").getD 10))
  | ["ledger", "import"], [file] => some (.importChanges file (i.value? "reference"))
  | ["ledger", "show"], _ => some .showLedger
  | _, _ => none

/-- The name and the version. -/
def versionText : String := "tesser 0.9.2"

/-- All lines. -/
def usageText : String := "\n".intercalate
  ["Usage: tesser [-v]... [--env ENV] COMMAND", "", "Commands:",
    "  reconcile run [--timeout SECONDS] [--strict] [--details]",
    "  reconcile watch [--interval SECONDS] [--metrics-addr ADDRESS]",
    "  health",
    "  report show SESSION",
    "  report list [--limit N]",
    "  ledger import FILE [--reference REFERENCE]",
    "  ledger show"]

/-- The environment that is configured for, and the command. -/
def parse (arguments : List String) : Outcome (String × Command) :=
  match read grammar arguments with
  | .usage => .usage
  | .information topic => .information topic
  | .invocation i =>
    match commandOf? i with
    | some c => .invocation ((i.value? "env").getD "default", c)
    | none => .usage

end CommandLine
end Reconciliation
