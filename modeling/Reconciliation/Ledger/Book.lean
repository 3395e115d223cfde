/-
# The ledger book

A book keeps the latest state and a bounded history of the states before it.  A commit applies a
whole batch, writes it to the journal if there is one, and only then becomes the latest state; a
commit that fails leaves no trace.  Times of commits never go back, whatever the clock says.
Versions and sequence numbers are words, and a commit that needs one beyond the last is refused.

* `LedgerBook.post`, `LedgerBook.commit`: a batch in place, and what it makes of a book;
* `LedgerBook.viewAt`: the state at an instant;
* `LedgerBook.replay`: a book from its journal.
-/
import Reconciliation.Ledger.State
import Reconciliation.Ledger.Journal

namespace Reconciliation

structure LedgerSettings where
  /-- The asset whose free balance is the available capital. -/
  capitalAsset : AssetId := .of .asset "USDT"
  /-- How many states are kept; at least one is. -/
  historyLimit : Nat := 256
  deriving DecidableEq

instance : Inhabited LedgerSettings := ⟨{}⟩

/-- How a ledger is. -/
structure LedgerHealth where
  healthy : Bool
  running : Bool
  deriving DecidableEq

structure LedgerBook where
  settings : LedgerSettings
  latest : LedgerState
  /-- The states before the latest one that are still kept, newest first. -/
  earlier : List LedgerState
  /-- The last sequence number that was given to a change. -/
  lastSequence : Nat
  journal : Option Journal
  running : Bool
  /-- Whether a state was dropped from the history. -/
  pruned : Bool

namespace LedgerBook

/-! ## 1. Opening -/

/-- A book that starts from a state. -/
def ofState (settings : LedgerSettings) (s : LedgerState) : LedgerBook :=
  { settings, latest := s, earlier := [], lastSequence := 0, journal := none, running := true,
    pruned := false }

/-- An empty book without a journal. -/
def fresh (settings : LedgerSettings) (now : Instant) : LedgerBook :=
  ofState settings (.genesis now)

instance : Inhabited LedgerBook := ⟨fresh default default⟩

/-- Applies a stored record; its refusal names it. -/
def replayRecord (books : AccountBooks) (r : JournalRecord) : Except LedgerError AccountBooks :=
  (AccountBooks.apply books r.mutation).mapError fun
    | .invalid v => .invalid (.replay r.sequence v)
    | e => e

/-- The state after all stored records.  It counts as the first version. -/
def replayState (now : Instant) (records : List JournalRecord) :
    Except LedgerError LedgerState :=
  match records.getLast? with
  | none => return .genesis now
  | some last => return ⟨1, last.sequence, last.timestamp, ← records.foldlM replayRecord .empty⟩

/-- A book from its journal, which it goes on to write. -/
def replay (settings : LedgerSettings) (now : Instant) (journal : Journal) :
    Except LedgerError LedgerBook := do
  let state ← replayState now (← journal.query {})
  let last ← journal.latestSequence
  return { ofState settings state with lastSequence := last.getD 0, journal := some journal }

/-! ## 2. Committing -/

/-- The records of a batch, numbered from `sequence + 1`.  `ids` are the ids drawn for its changes,
by their places. -/
def recordsOf (sequence : Nat) (time : Instant) (reference : String) (ids : Nat → Uuid)
    (mutations : List LedgerMutation) : Except Overflow (List JournalRecord) := do
  let first ← addWords sequence 1
  mutations.zipIdx.mapM fun (m, place) =>
    return ⟨ids place, ← addWords first place, time, reference, m⟩

/-- Makes a state the latest one, and drops from the history what is beyond the limit. -/
def publish (b : LedgerBook) (s : LedgerState) : LedgerBook :=
  let history := b.latest :: b.earlier
  let kept := history.take (max b.settings.historyLimit 1 - 1)
  { b with
    latest := s
    earlier := kept
    pruned := b.pruned || decide (kept.length < history.length) }

/-- Writes records to the journal, if there is one. -/
def writeRecords (records : List JournalRecord) : LedgerAction LedgerBook Unit := do
  match (← get).journal with
  | none => return ()
  | some j =>
    let j ← j.append records
    modify ({ · with journal := some j })

/-- Posts a batch at the time `now`, or at the time of the latest state if that is later.  The
changes are tried on a copy of the latest books, the journal is written before anything is
published, and an empty batch changes nothing. -/
def post (now : Instant) (mutations : List LedgerMutation) (reference : String)
    (ids : Nat → Uuid) : LedgerAction LedgerBook LedgerState := do
  let b ← get
  if !b.running then throw .notRunning
  else if mutations.isEmpty then return b.latest
  else
    let books ← AccountBooks.applyAll b.latest.books mutations
    let time := now.max b.latest.committedAt
    writeRecords (← recordsOf b.lastSequence time reference ids mutations)
    let last ← addWords b.lastSequence mutations.length
    modify ({ · with lastSequence := last })
    let next := ⟨← addWords b.latest.version 1, last, time, books⟩
    modify (·.publish next)
    return next

/-- The book after a batch, if nothing refuses it.  Where ids are not drawn at random, they are
made from the last sequence number. -/
def commit (b : LedgerBook) (now : Instant) (mutations : List LedgerMutation)
    (reference : String) (ids : Nat → Uuid := .stamped b.lastSequence) :
    Except LedgerError LedgerBook :=
  (post now mutations reference ids).result b

def setRunning (b : LedgerBook) (running : Bool) : LedgerBook := { b with running }

/-! ## 3. Reading -/

/-- The states that are kept, newest first. -/
def history (b : LedgerBook) : List LedgerState := b.latest :: b.earlier

/-- The oldest state that is kept. -/
def oldest (b : LedgerBook) : LedgerState := b.earlier.getLastD b.latest

/-- The newest state committed at or before an instant.  If history was dropped and none is left
that old, the oldest state stands in. -/
def viewAt (b : LedgerBook) (time : Instant) : Except LedgerError LedgerState :=
  match b.history.find? (·.committedAt ≤ time) with
  | some s => .ok s
  | none =>
    if b.pruned then .ok b.oldest else .error (.versionUnavailable time.toOffsetText)

def availableCapital (b : LedgerBook) : Except Decimal.Overflow Decimal :=
  b.latest.freeBalance b.settings.capitalAsset

/-- A book is healthy if its journal answers. -/
def health (b : LedgerBook) : LedgerHealth :=
  { healthy := match b.journal with
      | some j => j.latestSequence.isOk
      | none => true
    running := b.running }

end LedgerBook

end Reconciliation
