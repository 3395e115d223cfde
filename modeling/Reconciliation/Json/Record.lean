/-
# Records in JSON

A record is written as an object with one member a field.  Reading also takes an array with the
values in the order of the fields.  Members that no field asks for are ignored; items beyond the
last field are an error.

* `required`: a field that has to be there;
* `optional`: one that may be missing or `null`;
* `defaulted`: one with a value for a missing member, but not for `null`.
-/
import Reconciliation.Json.Value

namespace Reconciliation
namespace Json

/-- What a record is read from. -/
inductive Fields
  | named (members : List (String × Json))
  | positional (items : List Json)

/-- A reader of some of a record's fields; it leaves the fields that follow. -/
abbrev RecordReader (α : Type) := StateT Fields Option α

namespace RecordReader

/-- The next field's value, if it is there. -/
def take? (name : String) (fields : Fields) : Option (Option Json × Fields) :=
  match fields with
  | .named members => some (lookup name members, .named members)
  | .positional (v :: rest) => some (some v, .positional rest)
  | .positional [] => none

def required (name : String) (read : Json → Option α) : RecordReader α := fun fields => do
  match ← take? name fields with
  | (some v, rest) => return (← read v, rest)
  | (none, _) => none

def optional (name : String) (read : Json → Option α) : RecordReader (Option α) := fun fields => do
  match ← take? name fields with
  | (some v, rest) => return (← v.asOption? read, rest)
  | (none, rest) => return (none, rest)

def defaulted (name : String) (default : α) (read : Json → Option α) : RecordReader α :=
  fun fields =>
    match take? name fields with
    | some (some v, rest) => do return (← read v, rest)
    | some (none, rest) => some (default, rest)
    | none => some (default, fields)

/-- An optional field that may also be left out at the end of an array. -/
def omissible (name : String) (read : Json → Option α) : RecordReader (Option α) :=
  defaulted name none (·.asOption? read)

end RecordReader

/-- Reads a whole record. -/
def readRecord (reader : RecordReader α) : Json → Option α
  | .object members => (reader (.named members)).map (·.1)
  | .array items =>
    match reader (.positional items) with
    | some (a, .positional []) => some a
    | _ => none
  | _ => none

end Json
end Reconciliation
