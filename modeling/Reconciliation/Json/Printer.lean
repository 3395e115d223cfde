/-
# Writing JSON text

* `compact`: on one line without blanks;
* `pretty`: one member or item a line, two blanks deeper at each level.

Strings keep every character except quotes, backslashes and control characters.
-/
import Reconciliation.Json.Value
import Reconciliation.Text.Digits
import Reconciliation.Numeric.Binary64.Shortest

namespace Reconciliation
namespace Json

def escapeChar (c : Char) : List Char :=
  if c == '"' then ['\\', '"']
  else if c == '\\' then ['\\', '\\']
  else if c == '\n' then ['\\', 'n']
  else if c == '\r' then ['\\', 'r']
  else if c == '\t' then ['\\', 't']
  else if c == '\x08' then ['\\', 'b']
  else if c == '\x0c' then ['\\', 'f']
  else if c.toNat < 0x20 then
    ['\\', 'u', '0', '0', Text.hexDigit (c.toNat / 16), Text.hexDigit c.toNat]
  else [c]

/-- A string in quotes. -/
def quoted (s : String) : String := String.ofList ('"' :: s.toList.flatMap escapeChar ++ ['"'])

def Number.toText : Number → String
  | .int n => toString n
  | .real x => x.scientific

mutual

def compact : Json → String
  | .null => "null"
  | .bool true => "true"
  | .bool false => "false"
  | .number n => n.toText
  | .text s => quoted s
  | .array items => "[" ++ compactItems items ++ "]"
  | .object members => "\x7b" ++ compactMembers members ++ "\x7d"

def compactItems : List Json → String
  | [] => ""
  | [j] => compact j
  | j :: rest => compact j ++ "," ++ compactItems rest

def compactMembers : List (String × Json) → String
  | [] => ""
  | [(n, j)] => quoted n ++ ":" ++ compact j
  | (n, j) :: rest => quoted n ++ ":" ++ compact j ++ "," ++ compactMembers rest

end

def indentation (depth : Nat) : String := "\n" ++ String.ofList (List.replicate (2 * depth) ' ')

mutual

/-- The text at a depth of nesting. -/
def prettyAt (depth : Nat) : Json → String
  | .array [] => "[]"
  | .object [] => "\x7b\x7d"
  | .array items => "[" ++ prettyItems (depth + 1) items ++ indentation depth ++ "]"
  | .object members =>
    "\x7b" ++ prettyMembers (depth + 1) members ++ indentation depth ++ "\x7d"
  | .null => "null"
  | .bool true => "true"
  | .bool false => "false"
  | .number n => n.toText
  | .text s => quoted s

def prettyItems (depth : Nat) : List Json → String
  | [] => ""
  | [j] => indentation depth ++ prettyAt depth j
  | j :: rest => indentation depth ++ prettyAt depth j ++ "," ++ prettyItems depth rest

def prettyMembers (depth : Nat) : List (String × Json) → String
  | [] => ""
  | [(n, j)] => indentation depth ++ quoted n ++ ": " ++ prettyAt depth j
  | (n, j) :: rest =>
    indentation depth ++ quoted n ++ ": " ++ prettyAt depth j ++ "," ++ prettyMembers depth rest

end

def pretty (j : Json) : String := prettyAt 0 j

end Json
end Reconciliation
