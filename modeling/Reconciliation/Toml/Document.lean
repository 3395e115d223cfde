/-
# Documents in TOML

A document is a tree of tables.  A table comes into being in one of three ways, and each allows
different additions later: by its header, as part of a longer header, or by a dotted key.  Arrays
of tables grow by one table a header.

* `Toml.insertValue`, `Toml.openTable`, `Toml.openItem`: what a line does to the tree;
* `Toml.ofText?`: a document as a JSON object.
-/
import Reconciliation.Toml.Token

namespace Reconciliation
namespace Toml

/-! ## 1. The tree -/

/-- How a table came into being. -/
inductive TableKind
  | header
  /-- As a part of a longer header. -/
  | path
  /-- By a dotted key. -/
  | dotted
  deriving DecidableEq

/-- What a key stands for. -/
inductive Node
  | value (j : Json)
  | table (kind : TableKind) (entries : List (String × Node))
  /-- An array of tables, the last one first. -/
  | items (tables : List (List (String × Node)))

/-- The entries of a table, in the order of their first mention. -/
abbrev Entries := List (String × Node)

namespace Entries

def find? (key : String) (t : Entries) : Option Node := t.lookup key

/-- Replaces the node of a key, or adds it at the end. -/
def put (key : String) (n : Node) : Entries → Entries
  | [] => [(key, n)]
  | (k, old) :: rest => if k = key then (k, n) :: rest else (k, old) :: put key n rest

end Entries

/-- Goes down a path and changes the table at its end.  Missing tables are made; values cannot be
entered, and neither can tables with a header by a dotted key. -/
def descend (kind : TableKind) (change : TableKind → Entries → Option Entries) :
    List String → TableKind → Entries → Option Entries
  | [], reached, t => change reached t
  | key :: rest, _, t =>
    match t.find? key with
    | none => (descend kind change rest kind []).map fun sub => t.put key (.table kind sub)
    | some (.table old sub) =>
      if kind = .dotted ∧ old = .header then none
      else (descend kind change rest old sub).map fun sub => t.put key (.table old sub)
    | some (.items (last :: earlier)) =>
      (descend kind change rest .header last).map fun last => t.put key (.items (last :: earlier))
    | some (.items []) => none
    | some (.value _) => none

/-- Gives a new key its value. -/
def addValue (key : String) (j : Json) (t : Entries) : Option Entries :=
  if (t.find? key).isSome then none else some (t.put key (.value j))

/-- Gives a dotted key its value.  What the dots lead to has to be a table made by dots. -/
def insertValue (path : List String) (j : Json) (t : Entries) : Option Entries :=
  match path.reverse with
  | [] => none
  | [key] => addValue key j t
  | key :: parents =>
    descend .dotted (fun kind t => if kind = .dotted then addValue key j t else none)
      parents.reverse .header t

/-- Splits a path into its parents and its last key. -/
def splitLast? (path : List String) : Option (List String × String) :=
  path.getLast?.map (path.dropLast, ·)

/-- Opens a table by its header, which no header and no dotted key has made before. -/
def openTable (path : List String) (t : Entries) : Option Entries := do
  let (parents, key) ← splitLast? path
  let change := fun (_ : TableKind) (t : Entries) =>
    match t.find? key with
    | none => some (t.put key (.table .header []))
    | some (.table .path sub) => some (t.put key (.table .header sub))
    | some _ => none
  descend .path change parents .header t

/-- Opens another table of an array of tables. -/
def openItem (path : List String) (t : Entries) : Option Entries := do
  let (parents, key) ← splitLast? path
  let change := fun (_ : TableKind) (t : Entries) =>
    match t.find? key with
    | none => some (t.put key (.items [[]]))
    | some (.items tables) => some (t.put key (.items ([] :: tables)))
    | some _ => none
  descend .path change parents .header t

mutual

def Node.toJson : Node → Json
  | .value j => j
  | .table _ entries => .object (membersOf entries)
  | .items tables => .array (itemsOf tables).reverse

def membersOf : List (String × Node) → List (String × Json)
  | [] => []
  | (k, n) :: rest => (k, n.toJson) :: membersOf rest

def itemsOf : List (List (String × Node)) → List Json
  | [] => []
  | t :: rest => .object (membersOf t) :: itemsOf rest

end

/-! ## 2. Keys -/

/-- A dotted key that is being read; its parts are reversed. -/
structure KeyReader where
  parts : List String
  /-- Whether a part has to come next, and not a dot or the end. -/
  wantsPart : Bool

namespace KeyReader

def start : KeyReader := ⟨[], true⟩

def addPart (k : KeyReader) (part : String) : Option KeyReader :=
  if k.wantsPart then some ⟨part :: k.parts, false⟩ else none

def addDot (k : KeyReader) : Option KeyReader :=
  if k.wantsPart then none else some ⟨k.parts, true⟩

/-- Adds a part without quotes; its characters are reversed. -/
def addChars (k : KeyReader) : List Char → Option KeyReader
  | [] => some k
  | cs => k.addPart (String.ofList cs.reverse)

def charStep (s : KeyReader × List Char) (c : Char) : Option (KeyReader × List Char) :=
  if c == '.' then do return (← (← s.1.addChars s.2).addDot, [])
  else if isKeyChar c then some (s.1, c :: s.2)
  else none

/-- Adds the parts and dots of a word. -/
def addWord (k : KeyReader) (cs : List Char) : Option KeyReader :=
  (cs.foldlM charStep (k, [])).bind fun (k, part) => k.addChars part

/-- Adds the parts of a token. -/
def addToken (k : KeyReader) : Token → Option KeyReader
  | .blank => some k
  | .word cs => k.addWord cs
  | .string s false => k.addPart s
  | _ => none

/-- The whole key. -/
def path? (k : KeyReader) : Option (List String) :=
  if k.wantsPart then none else some k.parts.reverse

end KeyReader

/-! ## 3. Values -/

/-- An array or an inline table that is still open. -/
inductive Frame
  /-- The items are reversed. -/
  | array (items : List Json)
  /-- The entries before the member with a key. -/
  | table (entries : Entries) (path : List String)

/-- What may come next inside a value. -/
inductive Expectation
  | value
  | valueOrEnd
  /-- The key of a member; only the first one may be missing. -/
  | key (k : KeyReader) (first : Bool)
  | commaOrEnd

/-- Where reading stands in a line: at its start, after a bracket there, in a header with one
bracket or two, in a key, in a value, or after everything. -/
inductive Position
  | start
  | bracket
  | header (k : KeyReader) (item : Bool)
  | headerEnd (path : List String)
  | key (k : KeyReader)
  | value (path : List String) (frames : List Frame) (expects : Expectation)
  | done

/-- A document as far as it was read. -/
structure Reading where
  root : Entries
  /-- The path of the table that the lines add to. -/
  current : List String
  position : Position

namespace Reading

/-- Adds a member to the current table. -/
def assign (r : Reading) (path : List String) (j : Json) : Option Reading := do
  let root ← descend .path (fun _ t => insertValue path j t) r.current .header r.root
  return { r with root, position := .done }

/-- Puts a finished value where it belongs. -/
def place (r : Reading) (path : List String) (j : Json) : List Frame → Option Reading
  | [] => r.assign path j
  | .array items :: rest =>
    some { r with position := .value path (.array (j :: items) :: rest) .commaOrEnd }
  | .table entries member :: rest => do
    let entries ← insertValue member j entries
    return { r with position := .value path (.table entries [] :: rest) .commaOrEnd }

/-- A token inside a value. -/
def valueStep? (r : Reading) (path : List String) (frames : List Frame)
    (expects : Expectation) (t : Token) : Option Reading :=
  let goOn := fun frames expects => some { r with position := .value path frames expects }
  match expects, t, frames with
  | _, .blank, _ => some r
  | .valueOrEnd, .newline, _ => some r
  | .commaOrEnd, .newline, .array _ :: _ => some r
  | _, .newline, _ => none
  | .key k _, .mark '=', .table entries _ :: rest => do
    goOn (.table entries (← k.path?) :: rest) .value
  | .key k true, .mark '}', .table entries _ :: rest =>
    if k.wantsPart ∧ k.parts = [] then r.place path (.object (membersOf entries)) rest else none
  | .key k first, t, frames => do goOn frames (.key (← k.addToken t) first)
  | .commaOrEnd, .mark ',', .array items :: rest => goOn (.array items :: rest) .valueOrEnd
  | .commaOrEnd, .mark ',', .table entries _ :: rest =>
    goOn (.table entries [] :: rest) (.key .start false)
  | .commaOrEnd, .mark ']', .array items :: rest => r.place path (.array items.reverse) rest
  | .commaOrEnd, .mark '}', .table entries _ :: rest =>
    r.place path (.object (membersOf entries)) rest
  | .commaOrEnd, _, _ => none
  | .valueOrEnd, .mark ']', .array items :: rest => r.place path (.array items.reverse) rest
  | _, .mark '[', frames => goOn (.array [] :: frames) .valueOrEnd
  | _, .mark '{', frames => goOn (.table [] [] :: frames) (.key .start true)
  | _, .word cs, frames => do r.place path (← scalar? cs) frames
  | _, .string s _, frames => r.place path (.text s) frames
  | _, .mark _, _ => none

/-! ## 4. Lines -/

/-- A header that has been read. -/
def enter (r : Reading) (path : List String) (item : Bool) : Option Reading := do
  let root ← if item then openItem path r.root else openTable path r.root
  return ⟨root, path, .done⟩

def step (r : Reading) (t : Token) : Option Reading :=
  match r.position, t with
  | .start, .newline => some r
  | .start, .blank => some r
  | .start, .mark '[' => some { r with position := .bracket }
  | .start, t => do return { r with position := .key (← KeyReader.start.addToken t) }
  | .bracket, .mark '[' => some { r with position := .header .start true }
  | .bracket, t => do return { r with position := .header (← KeyReader.start.addToken t) false }
  | .header k item, .mark ']' => do
    let path ← k.path?
    if item then return { r with position := .headerEnd path } else r.enter path false
  | .header k item, t => do return { r with position := .header (← k.addToken t) item }
  | .headerEnd path, .mark ']' => r.enter path true
  | .headerEnd _, _ => none
  | .key k, .mark '=' => do return { r with position := .value (← k.path?) [] .value }
  | .key k, t => do return { r with position := .key (← k.addToken t) }
  | .value path frames expects, t => r.valueStep? path frames expects t
  | .done, .blank => some r
  | .done, .newline => some { r with position := .start }
  | .done, _ => none

end Reading

/-- Reads a document. -/
def ofChars? (cs : List Char) : Option Json := do
  let tokens ← Token.ofChars? cs
  let r ← tokens.foldlM Reading.step ⟨[], [], .start⟩
  match r.position with
  | .start => return .object (membersOf r.root)
  | _ => none

def ofText? (s : String) : Option Json := ofChars? s.toList

end Toml
end Reconciliation
