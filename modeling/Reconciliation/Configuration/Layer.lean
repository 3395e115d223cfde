/-
# Layers of configuration

A configuration is put together from layers, each of which may override the ones before it.
Tables are merged member by member; everything else is replaced.  Names count in lower case.

* `Configuration.overlay`: what a member of a later layer does to the tree;
* `Configuration.environmentLayer`: the layer of the environment's variables.
-/
import Reconciliation.Json.Value
import Reconciliation.Text.LowerCase

namespace Reconciliation
namespace Configuration

/-! ## 1. Merging -/

/-- A name as it counts. -/
def foldName (s : String) : String := Text.lowerCase s

/-- The members of a table; anything else has none. -/
def membersOf : Json → List (String × Json)
  | .object members => members
  | _ => []

/-- Replaces the value of a name, or adds it. -/
def putMember (name : String) (j : Json) : List (String × Json) → List (String × Json)
  | [] => [(name, j)]
  | (n, old) :: rest => if n = name then (n, j) :: rest else (n, old) :: putMember name j rest

mutual

/-- Puts a value under a name.  A table is merged into what is there, and takes its place if that
is no table; a table without members only makes sure that there is something. -/
def overlay (name : String) (tree : Json) : Json → Json
  | .object members =>
    let there := (Json.lookup (foldName name) (membersOf tree)).getD (.object [])
    .object (putMember (foldName name) (overlayAll there members) (membersOf tree))
  | j => .object (putMember (foldName name) j (membersOf tree))

/-- Puts all members of a table. -/
def overlayAll (tree : Json) : List (String × Json) → Json
  | [] => tree
  | (name, j) :: rest => overlayAll (overlay name tree j) rest

end

/-! ## 2. Paths -/

def isPathChar (c : Char) : Bool := c.isAlphanum || c == ' ' || c == '_' || c == '-'

/-- The names that a key with dots leads through.  A key with other characters, or with nothing
beside a dot, is one name. -/
def pathOf (key : String) : List String :=
  let parts := key.toList.splitOn '.'
  if parts.all fun p => !p.isEmpty && p.all isPathChar then parts.map String.ofList else [key]

/-- A value inside of tables with one member each. -/
def nested (path : List String) (j : Json) : Json :=
  path.foldr (fun name j => .object [(name, j)]) j

/-- Adds a layer on top of a tree. -/
def addLayer (tree : Json) (layer : List (String × Json)) : Json :=
  layer.foldl (fun tree (key, j) => overlayAll tree (membersOf (nested (pathOf key) j))) tree

/-! ## 3. The environment -/

/-- What a variable's name starts with to count. -/
def variableLead : String := "tesser__"

/-- Two underscores separate names. -/
def separated : List Char → List Char
  | '_' :: '_' :: rest => '.' :: separated rest
  | c :: rest => c :: separated rest
  | [] => []

/-- The key that a variable sets, if it sets one. -/
def keyOfVariable? (name : String) : Option String :=
  let cs := (foldName name).toList
  let lead := variableLead.toList
  if cs.take lead.length = lead then some (String.ofList (separated (cs.drop lead.length)))
  else none

/-- The layer of variables.  Empty ones do not count, and values are text. -/
def environmentLayer (vars : List (String × String)) : List (String × Json) :=
  vars.filterMap fun (name, value) =>
    if value = "" then none else (keyOfVariable? name).map (·, .text value)

end Configuration
end Reconciliation
