/-
# Reading JSON text

Reading is two left folds.  The first takes characters to tokens, the second assembles tokens to
a value with a stack of open arrays and objects.  A step that finds an error gives nothing, and
so does text that ends too early or goes on after the value.

* `Token.ofChars?`: characters to tokens;
* `Json.ofTokens?`: tokens to a value, at most 127 levels deep;
* `Json.ofText?`: both.
-/
import Reconciliation.Json.Value
import Reconciliation.Text.Digits

namespace Reconciliation
namespace Json

-- Powers are those of the core library, whatever other instances are in scope.
attribute [local instance (2000)] instPowNat

/-! ## 1. Words: numbers and constants -/

/-- Digits after the point or the exponent mark; at least one is required. -/
def takeDigits? (cs : List Char) : Option (List Char × List Char) :=
  match cs.takeWhile Char.isDigit, cs.dropWhile Char.isDigit with
  | [], _ => none
  | ds, rest => some (ds, rest)

/-- The written parts of a number. -/
structure NumberText where
  negative : Bool
  whole : List Char
  places : Option (List Char)
  exponent : Option (Bool × List Char)

/-- Splits an exponent with its sign. -/
def exponentText? : List Char → Option (Option (Bool × List Char))
  | [] => some none
  | e :: rest =>
    if e == 'e' || e == 'E' then
      let (negative, ds) := match rest with
        | '-' :: ds => (true, ds)
        | '+' :: ds => (false, ds)
        | ds => (false, ds)
      match takeDigits? ds with
      | some (ds, []) => some (some (negative, ds))
      | _ => none
    else none

/-- Splits a number; the integer part has no leading zero. -/
def NumberText.ofChars? (cs : List Char) : Option NumberText := do
  let (negative, cs) := match cs with
    | '-' :: rest => (true, rest)
    | cs => (false, cs)
  let (whole, cs) ← takeDigits? cs
  if 1 < whole.length && whole.head? == some '0' then none
  else
    match cs with
    | '.' :: rest =>
      let (places, rest) ← takeDigits? rest
      return ⟨negative, whole, some places, ← exponentText? rest⟩
    | rest => return ⟨negative, whole, none, ← exponentText? rest⟩

/-- The leading digits that fit into 64 bits, and how many digits follow them. -/
def leadingDigits (ds : List Char) (start : Nat) : Nat × Nat :=
  match ds with
  | [] => (start, 0)
  | c :: rest =>
    let next := start * 10 + Text.digitValue c
    if next < wordCount then leadingDigits rest next else (start, ds.length)

/-- The double nearest to a power of ten. -/
def powerOfTen? (k : Nat) : Option Binary64 := Binary64.ofNat? (10 ^ k)

/-- The largest power of ten among the doubles. -/
def largestPower : Nat := 308

/-- Multiplies by `10 ^ shift`, each step rounded to a double.  A divisor beyond the doubles
divides in two steps; beyond that nothing but a zero is left. -/
def shiftReal? (x : Binary64) (shift : Int) : Option Binary64 :=
  let places := (-shift).toNat
  if x.mantissa = 0 then some x
  else if largestPower < shift then none
  else if 0 ≤ shift then (powerOfTen? shift.toNat).bind x.mul?
  else if places ≤ largestPower then (powerOfTen? places).bind x.div?
  else if places ≤ 2 * largestPower then do
    let y ← x.div? (← powerOfTen? largestPower)
    y.div? (← powerOfTen? (places - largestPower))
  else some { Binary64.zero with negative := x.negative }

/-- A number with more than an integer in it: its digits as one integer, then one multiplication
or division by a power of ten.  Digits that do not fit into 64 bits are dropped, and the power
makes up for those of the integer part. -/
def NumberText.real? (t : NumberText) : Option Binary64 :=
  let (whole, dropped) := leadingDigits t.whole 0
  let (digits, shift) : Nat × Int := match t.places with
    | none => (whole, dropped)
    | some places =>
      let (digits, left) := leadingDigits places whole
      (digits, dropped - (places.length - left : Nat))
  let shift := match t.exponent with
    | none => shift
    | some (true, ds) => shift - Text.digitsValue ds
    | some (false, ds) => shift + Text.digitsValue ds
  (Binary64.ofRatio? t.negative digits 1).bind (shiftReal? · shift)

/-- An integer that fits into 64 bits stays one; minus zero is a double. -/
def NumberText.number? (t : NumberText) : Option Number :=
  match t.places, t.exponent with
  | none, none =>
    let n := Text.digitsValue t.whole
    if t.negative then
      if 0 < n ∧ n ≤ signedLimit then some (.int (-(n : Int))) else t.real?.map .real
    else if n < wordCount then some (.int n) else t.real?.map .real
  | _, _ => t.real?.map .real

/-- The value of a word that is no string. -/
def ofWord? (cs : List Char) : Option Json :=
  if cs = "null".toList then some .null
  else if cs = "true".toList then some (.bool true)
  else if cs = "false".toList then some (.bool false)
  else ((NumberText.ofChars? cs).bind (·.number?)).map .number

/-! ## 2. Tokens -/

inductive Token
  | openArray
  | closeArray
  | openObject
  | closeObject
  | colon
  | comma
  | scalar (j : Json)
  | string (s : String)

/-- Where a string stands: between characters, after a backslash, or inside the four digits of a
code unit.  A first half of a surrogate pair waits for its second half. -/
inductive StringState
  | plain
  | escaped (high : Option Nat)
  | unit (high : Option Nat) (digits value : Nat)
  | needBackslash (high : Nat)

/-- Where the lexer stands; collected characters are reversed. -/
inductive LexState
  | between
  | word (chars : List Char)
  | inside (chars : List Char) (state : StringState)

def escapeOf? : Char → Option Char
  | '"' => some '"'
  | '\\' => some '\\'
  | '/' => some '/'
  | 'b' => some '\x08'
  | 'f' => some '\x0c'
  | 'n' => some '\n'
  | 'r' => some '\r'
  | 't' => some '\t'
  | _ => none

/-- A complete code unit: a character, or half of one. -/
def closeUnit? (chars : List Char) (high : Option Nat) (u : Nat) :
    Option (List Char × StringState) :=
  match high with
  | some h =>
    if 0xdc00 ≤ u ∧ u < 0xe000 then
      some (Char.ofNat (0x10000 + (h - 0xd800) * 0x400 + (u - 0xdc00)) :: chars, .plain)
    else none
  | none =>
    if 0xd800 ≤ u ∧ u < 0xdc00 then some (chars, .needBackslash u)
    else if 0xdc00 ≤ u ∧ u < 0xe000 then none
    else some (Char.ofNat u :: chars, .plain)

/-- One character inside a string, other than its closing quote. -/
def stringStep? (chars : List Char) (c : Char) : StringState → Option (List Char × StringState)
  | .plain =>
    if c == '\\' then some (chars, .escaped none)
    else if c.toNat < 0x20 then none
    else some (c :: chars, .plain)
  | .escaped high =>
    if c == 'u' then some (chars, .unit high 0 0)
    else if high.isSome then none
    else (escapeOf? c).map fun d => (d :: chars, .plain)
  | .unit high digits value => do
    let v := value * 16 + (← Text.hexValue? c)
    if digits = 3 then closeUnit? chars high v else some (chars, .unit high (digits + 1) v)
  | .needBackslash high => if c == '\\' then some (chars, .escaped (some high)) else none

/-- A mark that is a token of its own. -/
def markOf? : Char → Option Token
  | '[' => some .openArray
  | ']' => some .closeArray
  | '\x7b' => some .openObject
  | '\x7d' => some .closeObject
  | ':' => some .colon
  | ',' => some .comma
  | _ => none

def isJsonBlank (c : Char) : Bool := c == ' ' || c == '\n' || c == '\t' || c == '\r'

/-- One character outside of strings and words; the tokens are reversed. -/
def betweenStep (tokens : List Token) (c : Char) : List Token × LexState :=
  if isJsonBlank c then (tokens, .between)
  else if c == '"' then (tokens, .inside [] .plain)
  else
    match markOf? c with
    | some t => (t :: tokens, .between)
    | none => (tokens, .word [c])

def lexStep : List Token × LexState → Char → Option (List Token × LexState)
  | (tokens, .between), c => some (betweenStep tokens c)
  | (tokens, .word chars), c =>
    if isJsonBlank c || c == '"' || (markOf? c).isSome then
      (ofWord? chars.reverse).map fun j => betweenStep (.scalar j :: tokens) c
    else some (tokens, .word (c :: chars))
  | (tokens, .inside chars .plain), c =>
    if c == '"' then some (.string (String.ofList chars.reverse) :: tokens, .between)
    else (stringStep? chars c .plain).map fun (chars, state) => (tokens, .inside chars state)
  | (tokens, .inside chars state), c =>
    (stringStep? chars c state).map fun (chars, state) => (tokens, .inside chars state)

/-- The tokens of a text. -/
def Token.ofChars? (cs : List Char) : Option (List Token) :=
  match cs.foldlM lexStep ([], .between) with
  | some (tokens, .between) => some tokens.reverse
  | some (tokens, .word chars) =>
    (ofWord? chars.reverse).map fun j => (Token.scalar j :: tokens).reverse
  | _ => none

/-! ## 3. Assembly -/

/-- An array or object that is still open; its items are reversed. -/
inductive Frame
  | array (items : List Json)
  | object (members : List (String × Json)) (name : Option String)

/-- What may come next. -/
inductive Expectation
  | value
  | valueOrEnd
  | name
  | nameOrEnd
  | colon
  | commaOrEnd
  | nothing
  deriving DecidableEq

structure Assembly where
  frames : List Frame
  expects : Expectation
  result : Option Json

def Assembly.start : Assembly := ⟨[], .value, none⟩

/-- Puts a finished value where it belongs. -/
def Assembly.place (frames : List Frame) (v : Json) : Option Assembly :=
  match frames with
  | [] => some ⟨[], .nothing, some v⟩
  | .array items :: rest => some ⟨.array (v :: items) :: rest, .commaOrEnd, none⟩
  | .object members (some n) :: rest =>
    some ⟨.object ((n, v) :: members) none :: rest, .commaOrEnd, none⟩
  | .object _ none :: _ => none

/-- The deepest nesting. -/
def maxDepth : Nat := 127

def Assembly.step (a : Assembly) : Token → Option Assembly
  | .scalar j =>
    if a.expects = .value ∨ a.expects = .valueOrEnd then place a.frames j else none
  | .string s =>
    match a.expects, a.frames with
    | .value, frames => place frames (.text s)
    | .valueOrEnd, frames => place frames (.text s)
    | .name, .object members none :: rest => some ⟨.object members (some s) :: rest, .colon, none⟩
    | .nameOrEnd, .object members none :: rest =>
      some ⟨.object members (some s) :: rest, .colon, none⟩
    | _, _ => none
  | .openArray =>
    if (a.expects = .value ∨ a.expects = .valueOrEnd) ∧ a.frames.length < maxDepth then
      some ⟨.array [] :: a.frames, .valueOrEnd, none⟩
    else none
  | .openObject =>
    if (a.expects = .value ∨ a.expects = .valueOrEnd) ∧ a.frames.length < maxDepth then
      some ⟨.object [] none :: a.frames, .nameOrEnd, none⟩
    else none
  | .closeArray =>
    match a.expects, a.frames with
    | .valueOrEnd, .array items :: rest => place rest (.array items.reverse)
    | .commaOrEnd, .array items :: rest => place rest (.array items.reverse)
    | _, _ => none
  | .closeObject =>
    match a.expects, a.frames with
    | .nameOrEnd, .object members none :: rest => place rest (.object members.reverse)
    | .commaOrEnd, .object members none :: rest => place rest (.object members.reverse)
    | _, _ => none
  | .colon => if a.expects = .colon then some ⟨a.frames, .value, none⟩ else none
  | .comma =>
    match a.expects, a.frames with
    | .commaOrEnd, .array items :: rest => some ⟨.array items :: rest, .value, none⟩
    | .commaOrEnd, .object members none :: rest =>
      some ⟨.object members none :: rest, .name, none⟩
    | _, _ => none

/-- The value of a list of tokens. -/
def ofTokens? (tokens : List Token) : Option Json :=
  (tokens.foldlM Assembly.step .start).bind (·.result)

def ofChars? (cs : List Char) : Option Json := (Token.ofChars? cs).bind ofTokens?

def ofText? (s : String) : Option Json := ofChars? s.toList

end Json
end Reconciliation
