/-
# What a journal holds

The rows of a journal that only a ledger has written are its records in the order in which they
were written, numbered without a gap.  Such a journal tells them all again, exactly, and has room
for the next batch: no number and no record id of the batch is taken.

* `JournalRow.toRecord_ofRecord`: a record read back from its row;
* `JournalRow.toRecord_ofRecord_eq_ok_iff`: when there is one, and that it is the same;
* `Journal.Holds`: the journal holds a list of records and nothing else;
* `Holds.query`, `Holds.latestSequence`: it tells them;
* `Holds.exists_append`, `Holds.of_append`: it takes the next batch, and holds it from then on;
* `serialization_of_query`: a query fails only for what it cannot read;
* `Filed.latestSequence_eq`: in any journal, the last record is the one with the largest number.
-/
import Reconciliation.Ledger.Book
import Reconciliation.Proofs.Ledger.Appending
import Reconciliation.Proofs.Ledger.Mutation

namespace Reconciliation

/-! ## 1. Records and rows -/

/-- The change can be read back, the year has four digits, and the number fits a signed word. -/
structure JournalRecord.Storable (r : JournalRecord) : Prop where
  mutation : r.mutation.Storable
  year : r.timestamp.HasPlainYear
  sequence : r.sequence < signedLimit

/-- The change can be read back, and the year has four digits.  So the row of the record can be
read, also if its number turns negative there. -/
structure JournalRecord.Readable (r : JournalRecord) : Prop where
  mutation : r.mutation.Storable
  year : r.timestamp.HasPlainYear

theorem JournalRecord.Storable.readable {r : JournalRecord} (h : r.Storable) : r.Readable :=
  ⟨h.mutation, h.year⟩

/-- **A record read back from its row is the same.** -/
theorem JournalRow.toRecord_ofRecord {r : JournalRecord} (h : r.Readable)
    (hword : r.sequence < wordCount) : toRecord (ofRecord r) = .ok r := by
  simp only [toRecord, ofRecord, Instant.ofStrictText?_toOffsetText h.year,
    LedgerMutation.ofText?_payload h.mutation, Uuid.ofText?_toText, unsignedWord_signedWord hword]

/-- No other record can be read back. -/
theorem JournalRow.readable_of_toRecord {r r' : JournalRecord}
    (h : toRecord (ofRecord r) = .ok r') : r.Readable := by
  simp only [toRecord, ofRecord] at h
  split at h
  · cases h
  · cases h
  · cases h
  · rename_i time mutation id htime hmutation hid
    exact {
      mutation := (LedgerMutation.ofText?_payload_eq_some_iff.1 hmutation).1
      year := Instant.hasPlainYear_of_ofStrictText? htime }

/-- **What is read from a row is the record that it was made of.** -/
theorem JournalRow.toRecord_ofRecord_eq_ok_iff {r r' : JournalRecord}
    (hword : r.sequence < wordCount) : toRecord (ofRecord r) = .ok r' ↔ r.Readable ∧ r' = r := by
  constructor
  · intro h
    have hreadable := readable_of_toRecord h
    rw [toRecord_ofRecord hreadable hword, Except.ok.injEq] at h
    exact ⟨hreadable, h.symm⟩
  · rintro ⟨hreadable, rfl⟩
    exact toRecord_ofRecord hreadable hword

/-- Of any row, the number is read back. -/
theorem JournalRow.sequence_of_toRecord {row : JournalRow} {r : JournalRecord}
    (h : row.toRecord = .ok r) : r.sequence = unsignedWord row.sequence := by
  unfold toRecord at h
  split at h
  · cases h
  · cases h
  · cases h
  · cases h
    rfl

/-- A row that cannot be read holds a text that cannot be read. -/
theorem JournalRow.serialization_of_toRecord {row : JournalRow} {e : LedgerError}
    (h : row.toRecord = .error e) : ∃ text, e = .serialization text := by
  unfold toRecord at h
  split at h <;> cases h <;> exact ⟨_, rfl⟩

/-! ## 2. Numbered records -/

/-- The records are numbered from the one after `start`. -/
def Numbered (start : Nat) (records : List JournalRecord) : Prop :=
  records.map (·.sequence) = List.range' (start + 1) records.length

namespace Numbered

variable {start : Nat} {r : JournalRecord} {records : List JournalRecord}

theorem append {next : List JournalRecord} (h : Numbered start records)
    (hnext : Numbered (start + records.length) next) : Numbered start (records ++ next) := by
  unfold Numbered at *
  rw [List.map_append, h, hnext, List.length_append, Nat.add_right_comm, List.range'_append_1]

theorem sequence_le (h : Numbered start records) (hr : r ∈ records) :
    start < r.sequence ∧ r.sequence ≤ start + records.length := by
  have hmem : r.sequence ∈ records.map (·.sequence) := List.mem_map_of_mem hr
  rw [h, List.mem_range'_1] at hmem
  omega

/-- They are in the order of their numbers. -/
theorem pairwise_lt (h : Numbered start records) :
    records.Pairwise fun a b => a.sequence < b.sequence := by
  have hlt : (records.map (·.sequence)).Pairwise (· < ·) := h ▸ List.pairwise_lt_range'
  rwa [List.pairwise_map] at hlt

theorem nodup_sequence (h : Numbered start records) : (records.map (·.sequence)).Nodup :=
  h ▸ List.nodup_range'

/-- The last record has the number of all that there are. -/
theorem sequence_of_getLast? (h : Numbered start records) (hr : records.getLast? = some r) :
    r.sequence = start + records.length := by
  have hlast : (records.map (·.sequence)).getLast? = some r.sequence := by
    rw [List.getLast?_map, hr, Option.map_some]
  rw [h, List.getLast?_range'] at hlast
  split at hlast
  · cases hlast
  · have := Option.some.inj hlast
    omega

end Numbered

/-! ## 3. A journal and its records -/

namespace Journal

/-- `Holds j records`: the journal holds these records, numbered from 1, and nothing else. -/
structure Holds (j : Journal) (records : List JournalRecord) : Prop where
  entries : j.rows.entries = records.map entryOf
  numbered : Numbered 0 records
  ids : (records.map (·.id)).Nodup
  storable : ∀ r ∈ records, r.Storable

variable {j j' : Journal} {records next l rs : List JournalRecord}

theorem holds_empty : Holds .empty [] where
  entries := rfl
  numbered := rfl
  ids := .nil
  storable _ h := nomatch h

theorem Holds.word (h : j.Holds records) : ∀ r ∈ records, r.sequence < wordCount :=
  fun r hr => Nat.lt_trans (h.storable r hr).sequence (by decide)

/-- There are fewer records than signed words. -/
theorem Holds.length_lt (h : j.Holds records) : records.length < signedLimit := by
  cases hlast : records.getLast? with
  | none =>
    rw [List.getLast?_eq_none_iff.1 hlast]
    decide
  | some r =>
    have hnumber := h.numbered.sequence_of_getLast? hlast
    have hsigned := (h.storable r (List.mem_of_getLast? hlast)).sequence
    omega

/-- Faults of the storage do not touch what it holds. -/
theorem Holds.withFaults (h : j.Holds records) (appendFault latestFault : Option StorageFault) :
    Holds { j with appendFault, latestFault } records :=
  { h with }

/-- Rows are all read or none, and what is read are the records that they were made of. -/
theorem mapM_toRecord_eq_ok_iff (h : ∀ r ∈ l, r.sequence < wordCount) :
    (l.map JournalRow.ofRecord).mapM JournalRow.toRecord = .ok rs ↔
      rs = l ∧ ∀ r ∈ rs, r.Readable := by
  induction l generalizing rs with
  | nil =>
    rw [List.map_nil, List.mapM_nil, pure_eq_ok_iff]
    constructor
    · rintro rfl
      exact ⟨rfl, fun _ hr => nomatch hr⟩
    · rintro ⟨rfl, -⟩
      rfl
  | cons r rest ih =>
    obtain ⟨hword, hrest⟩ := List.forall_mem_cons.1 h
    simp only [List.map_cons, List.mapM_cons, bind_eq_ok_iff, pure_eq_ok_iff, ih hrest,
      JournalRow.toRecord_ofRecord_eq_ok_iff hword]
    constructor
    · rintro ⟨_, ⟨hr, rfl⟩, _, ⟨rfl, hrs⟩, rfl⟩
      exact ⟨rfl, List.forall_mem_cons.2 ⟨hr, hrs⟩⟩
    · rintro ⟨rfl, hrs⟩
      obtain ⟨hr, hrs⟩ := List.forall_mem_cons.1 hrs
      exact ⟨r, ⟨hr, rfl⟩, rest, ⟨rfl, hrs⟩, rfl⟩

/-- A query fails only for a row that cannot be read. -/
theorem serialization_of_query {q : JournalQuery} {e : LedgerError} (h : j.query q = .error e) :
    ∃ text, e = .serialization text := by
  obtain ⟨row, -, hrow⟩ := exists_of_mapM_eq_error h
  exact JournalRow.serialization_of_toRecord hrow

/-- A query without conditions asks for everything. -/
theorem query_all (j : Journal) : j.query {} = j.rows.values.mapM JournalRow.toRecord := by
  have hall : j.rows.values.filter (JournalQuery.selects {}) = j.rows.values :=
    List.filter_eq_self.2 fun _ _ => rfl
  rw [Journal.query, hall]
  rfl

/-- **A journal tells all the records that it holds, in their order.** -/
theorem Holds.query (h : j.Holds records) : j.query {} = .ok records := by
  have hrows : j.rows.values = records.map JournalRow.ofRecord := by
    simp only [SortedMap.values, h.entries, List.map_map, entryOf, Function.comp_def]
  rw [query_all, hrows, mapM_toRecord_eq_ok_iff h.word]
  exact ⟨rfl, fun r hr => (h.storable r hr).readable⟩

theorem Holds.latestSequence (h : j.Holds records) (hanswers : j.latestFault = none) :
    j.latestSequence = .ok (records.getLast?.map (·.sequence)) := by
  have hkeys : j.rows.keys.getLast? = records.getLast?.map fun r => signedWord r.sequence := by
    simp only [SortedMap.keys, h.entries, List.map_map, List.getLast?_map, entryOf,
      Function.comp_def]
  rw [Journal.latestSequence, hanswers, hkeys]
  cases hlast : records.getLast? with
  | none => rfl
  | some r =>
    rw [Option.map_some, Option.map_some, Option.map_some,
      unsignedWord_signedWord (h.word r (List.mem_of_getLast? hlast))]

/-! ## 4. The next batch -/

/-- It stores the records, each in a row of its own. -/
theorem Holds.stores (h : j.Holds records) (hfault : j.appendFault = none) :
    j.Stores records where
  fault := hfault
  entries := h.entries ▸ .refl _
  ids := h.ids

/-- Conversely, stored records that are numbered from 1 are held. -/
theorem Stores.holds (h : j.Stores records) (hnumbered : Numbered 0 records)
    (hstorable : ∀ r ∈ records, r.Storable) : j.Holds records where
  entries := by
    refine h.entries_eq (hnumbered.pairwise_lt.imp_of_mem fun {a b} ha hb hlt => ?_)
    rw [signedWord_of_lt (hstorable a ha).sequence, signedWord_of_lt (hstorable b hb).sequence]
    exact Int.ofNat_lt.2 hlt
  numbered := hnumbered
  ids := h.ids
  storable := hstorable

/-- A journal that took the next batch holds it behind the rest. -/
theorem Holds.of_append (h : j.Holds records) (hnext : Numbered records.length next)
    (hstorable : ∀ r ∈ next, r.Storable) (happend : j.append next = .ok j') :
    j'.latestFault = j.latestFault ∧ j'.Holds (records ++ next) := by
  obtain ⟨hfault, -, hj'⟩ := append_eq_ok_iff.1 happend
  have hnumbered : Numbered 0 (records ++ next) := h.numbered.append (by rwa [Nat.zero_add])
  exact ⟨hj' ▸ rfl, ((h.stores hfault).append happend).holds hnumbered
    (List.forall_mem_append.2 ⟨h.storable, hstorable⟩)⟩

/-- **The next batch fits behind what a journal holds**, unless the storage fails or one of its ids
is used. -/
theorem Holds.exists_append (h : j.Holds records) (hfault : j.appendFault = none)
    (hnext : Numbered records.length next) (hstorable : ∀ r ∈ next, r.Storable)
    (hunused : j.Unused (next.map (·.id))) : ∃ j', j.append next = .ok j' := by
  have hnumbered : Numbered 0 (records ++ next) := h.numbered.append (by rwa [Nat.zero_add])
  have hword : ∀ r ∈ records ++ next, r.sequence < wordCount :=
    List.forall_mem_append.2
      ⟨h.word, fun r hr => Nat.lt_trans (hstorable r hr).sequence (by decide)⟩
  refine ((h.stores hfault).exists_append_iff hword).2 ⟨hnumbered.nodup_sequence, ?_⟩
  rw [List.map_append]
  exact (h.stores hfault).unused_iff.1 hunused

/-! ## 5. Journals that others have written to -/

/-- Every row is stored under its own number, whatever that is. -/
def Filed (j : Journal) : Prop := ∀ n row, j.rows.get? n = some row → row.sequence = n

theorem filed_insertAll {rows : SortedMap Int JournalRow}
    (h : ∀ n row, rows.get? n = some row → row.sequence = n) (l : List JournalRow) :
    ∀ n row, (insertAll rows l).get? n = some row → row.sequence = n := by
  induction l generalizing rows with
  | nil => exact h
  | cons row rest ih => exact ih (SortedMap.forall_insert h rfl)

theorem Filed.append (h : j.Filed) (happend : j.append next = .ok j') : j'.Filed := by
  obtain ⟨-, -, rfl⟩ := append_eq_ok_iff.1 happend
  exact filed_insertAll h _

/-- So it is in a journal that was only ever written to in batches. -/
theorem Written.filed (h : Written records j) : j.Filed := by
  induction h with
  | empty => exact fun _ _ hrow => nomatch hrow
  | taken _ happend ih => exact ih.append happend
  | refused _ _ ih => exact ih

/-- The last of some rows gives the last of their records. -/
theorem getLast?_mapM_toRecord {rows : List JournalRow} {row : JournalRow}
    (h : rows.mapM JournalRow.toRecord = .ok records) (hlast : rows.getLast? = some row) :
    ∃ r, records.getLast? = some r ∧ r.sequence = unsignedWord row.sequence := by
  obtain ⟨rows, rfl⟩ := List.getLast?_eq_some_iff.1 hlast
  simp only [List.mapM_append, List.mapM_cons, List.mapM_nil, bind_eq_ok_iff, pure_eq_ok_iff] at h
  obtain ⟨earlier, -, -, ⟨r, hr, -, rfl, rfl⟩, rfl⟩ := h
  exact ⟨r, by simp, JournalRow.sequence_of_toRecord hr⟩

/-- **The last record that a journal tells is the one with the largest number.** -/
theorem Filed.latestSequence_eq (h : j.Filed) {last : Option Nat}
    (hquery : j.query {} = .ok records) (hlatest : j.latestSequence = .ok last) :
    last = records.getLast?.map (·.sequence) := by
  rw [query_all] at hquery
  have hkeys : last = j.rows.entries.getLast?.map fun e => unsignedWord e.1 := by
    unfold Journal.latestSequence at hlatest
    split at hlatest
    · cases hlatest
    · cases hlatest
      rw [SortedMap.keys, List.getLast?_map, Option.map_map]
      rfl
  have hvalues : j.rows.values.getLast? = j.rows.entries.getLast?.map (·.2) := by
    rw [SortedMap.values, List.getLast?_map]
  rw [hkeys]
  cases hentry : j.rows.entries.getLast? with
  | none =>
    rw [SortedMap.values, List.getLast?_eq_none_iff.1 hentry] at hquery
    cases hquery
    rfl
  | some e =>
    rw [hentry, Option.map_some] at hvalues
    obtain ⟨r, hr, hsequence⟩ := getLast?_mapM_toRecord hquery hvalues
    have hfiled : e.2.sequence = e.1 :=
      h e.1 e.2 (SortedMap.mem_entries_iff.1 (List.mem_of_getLast? hentry))
    rw [hr, Option.map_some, Option.map_some, hsequence, hfiled]

/-! ## 6. A journal with one record -/

/-- The journal that holds one record, whatever its number. -/
def single (r : JournalRecord) : Journal :=
  { rows := SortedMap.empty.insert (signedWord r.sequence) (.ofRecord r) }

theorem entries_single (r : JournalRecord) :
    (single r).rows.entries = [(signedWord r.sequence, .ofRecord r)] := rfl

theorem append_empty (r : JournalRecord) : append .empty [r] = .ok (single r) := by
  have hinsert : insertRow .empty (.ofRecord r) = .ok (single r).rows := by
    rw [insertRow, sequence_ofRecord]
    rfl
  show (do
    let rows ← [JournalRow.ofRecord r].foldlM insertRow .empty
    return ({ rows } : Journal)) = _
  rw [List.foldlM_cons, hinsert]
  rfl

end Journal

end Reconciliation
