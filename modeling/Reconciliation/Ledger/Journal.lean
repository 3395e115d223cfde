/-
# The journal of a ledger

A journal keeps the changes of a ledger as rows, one for each sequence number.  Rows hold
sequence numbers as signed words of 64 bits, and times, record ids and changes as text, a change
as a JSON document; both directions of that encoding are here.

* `Journal.append`: all records of a batch or none;
* `Journal.query`: the records that a query asks for, by sequence number.
-/
import Reconciliation.Json.Printer
import Reconciliation.Json.Reader
import Reconciliation.Numeric.Word
import Reconciliation.SortedMap
import Reconciliation.Uuid
import Reconciliation.Ledger.Error
import Reconciliation.Ledger.Mutation

namespace Reconciliation

/-! ## 1. Records and rows -/

/-- A committed change. -/
structure JournalRecord where
  id : Uuid
  sequence : Nat
  timestamp : Instant
  /-- What the change was made for. -/
  reference : String
  mutation : LedgerMutation
  deriving DecidableEq

namespace JournalRecord

def ofJson? (j : Json) : Option JournalRecord :=
  j.readRecord do
    return ⟨← .required "id" Uuid.ofJson?, ← .required "sequence" Json.asNat64?,
      ← .required "timestamp" Instant.ofJson?, ← .required "reference_id" Json.asText?,
      ← .required "mutation" LedgerMutation.ofJson?⟩

def toJson (r : JournalRecord) : Json :=
  .object [
    ("id", r.id.toJson),
    ("sequence", .ofNat r.sequence),
    ("timestamp", r.timestamp.toJson),
    ("reference_id", .text r.reference),
    ("mutation", r.mutation.toJson)]

end JournalRecord

/-- A record as it is stored. -/
structure JournalRow where
  sequence : Int
  recordId : String
  timestamp : String
  exchange : String
  reference : String
  payload : String

namespace JournalRow

def ofRecord (r : JournalRecord) : JournalRow :=
  { sequence := signedWord r.sequence
    recordId := r.id.toText
    timestamp := r.timestamp.toOffsetText
    exchange := r.mutation.exchange.text
    reference := r.reference
    payload := r.mutation.toJson.compact }

/-- The record of a row.  A time whose year has not four digits cannot be read back. -/
def toRecord (row : JournalRow) : Except LedgerError JournalRecord :=
  match Instant.ofStrictText? row.timestamp, (Json.ofText? row.payload).bind LedgerMutation.ofJson?,
    Uuid.ofText? row.recordId with
  | none, _, _ => .error (.serialization s!"invalid timestamp {row.timestamp}")
  | _, none, _ => .error (.serialization s!"invalid journal payload at {row.sequence}")
  | _, _, none => .error (.serialization s!"invalid record id {row.recordId}")
  | some time, some mutation, some id =>
    .ok ⟨id, unsignedWord row.sequence, time, row.reference, mutation⟩

def ofJson? (j : Json) : Option JournalRow :=
  j.readRecord do
    return ⟨← .required "sequence" Json.asInt64?, ← .required "record_id" Json.asText?,
      ← .required "timestamp" Json.asText?, ← .required "exchange" Json.asText?,
      ← .required "reference_id" Json.asText?, ← .required "payload" Json.asText?⟩

def toJson (row : JournalRow) : Json :=
  .object [
    ("sequence", .ofInt row.sequence),
    ("record_id", .text row.recordId),
    ("timestamp", .text row.timestamp),
    ("exchange", .text row.exchange),
    ("reference_id", .text row.reference),
    ("payload", .text row.payload)]

end JournalRow

/-! ## 2. Queries -/

/-- Which records to load.  Sequence numbers and times are inclusive bounds. -/
structure JournalQuery where
  exchange : Option ExchangeId := none
  startSequence : Option Nat := none
  endSequence : Option Nat := none
  startTime : Option Instant := none
  endTime : Option Instant := none
  limit : Option Nat := none
  descending : Bool := false

namespace JournalQuery

/-- Whether a bound that may be missing holds. -/
def holds (bound : Option α) (p : α → Bool) : Bool := (bound.map p).getD true

/-- Whether the query asks for a row.  Times are compared as text. -/
def selects (q : JournalQuery) (row : JournalRow) : Bool :=
  holds q.exchange (fun e => e.text == row.exchange) &&
  holds q.startSequence (fun n => signedWord n ≤ row.sequence) &&
  holds q.endSequence (fun n => row.sequence ≤ signedWord n) &&
  holds q.startTime (fun t => ! decide (row.timestamp < t.toOffsetText)) &&
  holds q.endTime (fun t => ! decide (t.toOffsetText < row.timestamp))

/-- Cuts to the limit; one that is negative as a signed word is none. -/
def cut (q : JournalQuery) (rows : List JournalRow) : List JournalRow :=
  match q.limit with
  | some n => if signedWord n < 0 then rows else rows.take n
  | none => rows

def ofJson? (j : Json) : Option JournalQuery :=
  j.readRecord do
    return ⟨← .omissible "exchange" (Identifier.ofJson? .exchange),
      ← .omissible "start_sequence" Json.asNat64?, ← .omissible "end_sequence" Json.asNat64?,
      ← .omissible "start_time" Instant.ofJson?, ← .omissible "end_time" Instant.ofJson?,
      ← .omissible "limit" Json.asNat64?, ← .defaulted "descending" false Json.asBool?⟩

end JournalQuery

/-! ## 3. The journal -/

/-- The stored rows by sequence number, and what keeps them from being written or searched. -/
structure Journal where
  rows : SortedMap Int JournalRow
  appendFault : Option StorageFault := none
  latestFault : Option StorageFault := none

namespace Journal

def empty : Journal := { rows := .empty }

instance : Inhabited Journal := ⟨empty⟩

/-- Stores a row under its sequence number, which must be new, and so must its record id. -/
def insertRow (rows : SortedMap Int JournalRow) (row : JournalRow) :
    Except LedgerError (SortedMap Int JournalRow) :=
  if rows.contains row.sequence then .error (.storage .sequenceTaken)
  else if rows.values.any (·.recordId == row.recordId) then .error (.storage .recordIdTaken)
  else .ok (rows.insert row.sequence row)

/-- Stores a batch of records, all or none. -/
def append (j : Journal) (records : List JournalRecord) : Except LedgerError Journal :=
  match j.appendFault with
  | some fault => .error (.storage fault)
  | none => do
    let rows ← (records.map JournalRow.ofRecord).foldlM insertRow j.rows
    return { j with rows }

/-- The largest stored sequence number, as a signed word. -/
def latestSequence (j : Journal) : Except LedgerError (Option Nat) :=
  match j.latestFault with
  | some fault => .error (.storage fault)
  | none => .ok (j.rows.keys.getLast?.map unsignedWord)

/-- The records that a query asks for. -/
def query (j : Journal) (q : JournalQuery) : Except LedgerError (List JournalRecord) :=
  let rows := j.rows.values.filter q.selects
  (q.cut (if q.descending then rows.reverse else rows)).mapM JournalRow.toRecord

end Journal

end Reconciliation
