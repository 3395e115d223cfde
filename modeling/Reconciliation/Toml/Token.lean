/-
# Tokens of TOML

A left fold over the characters.  Comments are dropped here, strings lose their quotes and
escapes, and blanks are kept as tokens because the brackets of some headers have to touch.

* `Toml.Token.ofChars?`: the tokens of a text, with a line break at the end.
-/
import Reconciliation.Toml.Scalar

namespace Reconciliation
namespace Toml

/-! ## 1. Tokens -/

inductive Token
  | newline
  | blank
  /-- One of the characters `=`, `,` and the brackets. -/
  | mark (c : Char)
  /-- A run of characters of keys and plain values. -/
  | word (cs : List Char)
  /-- A string; one in triple quotes cannot be a key. -/
  | string (s : String) (triple : Bool)

def isMark (c : Char) : Bool := "=,[]\x7b\x7d".toList.contains c

/-- The characters of keys without quotes. -/
def isKeyChar (c : Char) : Bool := c.isAlphanum || c == '_' || c == '-'

def isWordChar (c : Char) : Bool := isKeyChar c || c == '+' || c == '.' || c == ':'

/-- A control character other than a tab. -/
def isControl (c : Char) : Bool := (c.toNat < 0x20 && c != '\t') || c.toNat = 0x7f

/-! ## 2. Strings -/

/-- Where the lexer stands inside a string. -/
inductive StringMode
  /-- Right after the opening triple quotes. -/
  | opened
  | plain
  /-- After some quotes that may be the end of a triple-quoted string. -/
  | quotes (n : Nat)
  | escaped
  /-- Inside a character number, with the digits that are left. -/
  | unit (left value : Nat)
  /-- After a backslash at the end of a line; blanks are dropped once the line has ended. -/
  | folding (ended : Bool)

/-- A string that is still open; its characters are reversed. -/
structure OpenString where
  /-- Whether backslashes escape. -/
  basic : Bool
  triple : Bool
  chars : List Char
  mode : StringMode

namespace OpenString

def quote (s : OpenString) : Char := if s.basic then '"' else '\''

/-- The token of the string, with some quotes more at its end. -/
def close (s : OpenString) (quotes : Nat) : Token :=
  .string (String.ofList (s.chars.reverse ++ List.replicate quotes s.quote)) s.triple

def escapeOf? : Char → Option Char
  | '"' => some '"'
  | '\\' => some '\\'
  | 'b' => some '\x08'
  | 't' => some '\t'
  | 'n' => some '\n'
  | 'f' => some '\x0c'
  | 'r' => some '\r'
  | _ => none

/-- The character with a number, if it has one. -/
def charOf? (n : Nat) : Option Char :=
  if n < 0xd800 ∨ 0xe000 ≤ n ∧ n < 0x110000 then some (Char.ofNat n) else none

/-- A character of the text that is no quote. -/
def plainStep? (s : OpenString) (c : Char) : Option OpenString :=
  if s.basic && c == '\\' then some { s with mode := .escaped }
  else if c == '\n' && s.triple then some { s with chars := c :: s.chars, mode := .plain }
  else if isControl c then none
  else some { s with chars := c :: s.chars, mode := .plain }

/-- A character after a backslash. -/
def escapeStep? (s : OpenString) (c : Char) : Option OpenString :=
  if c == 'u' then some { s with mode := .unit 4 0 }
  else if c == 'U' then some { s with mode := .unit 8 0 }
  else if s.triple && c == '\n' then some { s with mode := .folding true }
  else if s.triple && (c == ' ' || c == '\t') then some { s with mode := .folding false }
  else (escapeOf? c).map fun d => { s with chars := d :: s.chars, mode := .plain }

/-- A digit of a character number. -/
def unitStep? (s : OpenString) (left value : Nat) (c : Char) : Option OpenString := do
  let value := value * 16 + (← Text.hexValue? c)
  if left ≤ 1 then return { s with chars := (← charOf? value) :: s.chars, mode := .plain }
  else return { s with mode := .unit (left - 1) value }

end OpenString

/-! ## 3. The fold -/

inductive LexState
  | between
  | word (chars : List Char)
  /-- After a date and one blank: a time may follow. -/
  | date (chars : List Char)
  | comment
  /-- After one or two quotes. -/
  | opening (basic : Bool) (second : Bool)
  | inside (s : OpenString)

abbrev Lexer := List Token × LexState

/-- A character outside of words and strings; the tokens are reversed. -/
def betweenStep? (tokens : List Token) (c : Char) : Option Lexer :=
  if c == '\n' then some (.newline :: tokens, .between)
  else if c == ' ' || c == '\t' then some (.blank :: tokens, .between)
  else if c == '#' then some (tokens, .comment)
  else if c == '"' || c == '\'' then some (tokens, .opening (c == '"') false)
  else if isMark c then some (.mark c :: tokens, .between)
  else if isWordChar c then some (tokens, .word [c])
  else none

/-- A character inside a string that is no escape. -/
def textStep? (tokens : List Token) (s : OpenString) (c : Char) : Option Lexer :=
  if c == s.quote then
    if s.triple then some (tokens, .inside { s with mode := .quotes 1 })
    else some (s.close 0 :: tokens, .between)
  else (s.plainStep? c).map fun s => (tokens, .inside s)

/-- A character after quotes inside a triple-quoted string: three close it, and up to two more
belong to the string. -/
def quotesStep? (tokens : List Token) (s : OpenString) (n : Nat) (c : Char) : Option Lexer :=
  if c == s.quote then
    if n < 4 then some (tokens, .inside { s with mode := .quotes (n + 1) })
    else some (s.close 2 :: tokens, .between)
  else if n < 3 then
    textStep? tokens { s with chars := List.replicate n s.quote ++ s.chars } c
  else betweenStep? (s.close (n - 3) :: tokens) c

/-- A character inside a string. -/
def insideStep? (tokens : List Token) (s : OpenString) (c : Char) : Option Lexer :=
  match s.mode with
  | .opened =>
    if c == '\n' then some (tokens, .inside { s with mode := .plain }) else textStep? tokens s c
  | .plain => textStep? tokens s c
  | .quotes n => quotesStep? tokens s n c
  | .escaped => (s.escapeStep? c).map fun s => (tokens, .inside s)
  | .unit left value => (s.unitStep? left value c).map fun s => (tokens, .inside s)
  | .folding ended =>
    if c == '\n' then some (tokens, .inside { s with mode := .folding true })
    else if c == ' ' || c == '\t' then some (tokens, .inside s)
    else if ended then textStep? tokens s c
    else none

def lexStep : Lexer → Char → Option Lexer
  | (tokens, .between), c => betweenStep? tokens c
  | (tokens, .word cs), c =>
    if isWordChar c then some (tokens, .word (c :: cs))
    else if c == ' ' && isDate cs.reverse then some (tokens, .date cs)
    else betweenStep? (.word cs.reverse :: tokens) c
  | (tokens, .date cs), c =>
    if c.isDigit then some (tokens, .word (c :: ' ' :: cs))
    else betweenStep? (.blank :: .word cs.reverse :: tokens) c
  | (tokens, .comment), c =>
    if c == '\n' then betweenStep? tokens c
    else if isControl c then none
    else some (tokens, .comment)
  | (tokens, .opening basic second), c =>
    let s : OpenString := ⟨basic, second, [], if second then .opened else .plain⟩
    if c != s.quote then
      if second then betweenStep? (.string "" false :: tokens) c else insideStep? tokens s c
    else if second then some (tokens, .inside s)
    else some (tokens, .opening basic true)
  | (tokens, .inside s), c => insideStep? tokens s c

/-- With each line break as one character. -/
def joinBreaks : List Char → List Char
  | '\r' :: '\n' :: rest => '\n' :: joinBreaks rest
  | c :: rest => c :: joinBreaks rest
  | [] => []

/-- The tokens of a text. -/
def Token.ofChars? (cs : List Char) : Option (List Token) :=
  let cs := if cs.head? = some '\ufeff' then cs.tail else cs
  match (joinBreaks cs ++ ['\n']).foldlM lexStep ([], .between) with
  | some (tokens, .between) => some tokens.reverse
  | _ => none

end Toml
end Reconciliation
