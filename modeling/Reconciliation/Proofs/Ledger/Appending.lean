/-
# What a journal takes

A batch of records is stored row by row, and all of it or nothing.  Whether it is stored depends on
the numbers and the ids of its records alone: none may be taken, and none may occur twice in the
batch.  What a journal holds after any number of batches are then the records of those that were
stored, each in a row of its own.

* `Journal.Fits`, `Journal.append_eq_ok_iff`: the batches that are stored;
* `Journal.Unused`, `Journal.exists_append_of_unused`: the same numbers with other ids;
* `Journal.Written`, `Journal.Written.stores`: a journal and what was written to it;
* `Journal.Stores.exists_append_iff`: the next batch;
* `Journal.Stores.exists_sorted`, `Journal.Stores.entries_eq`: the rows in their order.
-/
import Mathlib.Data.List.Forall2
import Mathlib.Data.List.Nodup
import Mathlib.Data.List.Perm.Basic
import Reconciliation.Ledger.Journal
import Reconciliation.Proofs.Checked
import Reconciliation.Proofs.SortedMap
import Reconciliation.Proofs.Uuid

namespace Reconciliation
namespace Journal

variable {rows rows' : SortedMap Int JournalRow} {row : JournalRow} {l : List JournalRow}

/-! ## 1. Rows -/

/-- A record as an entry of the rows. -/
def entryOf (r : JournalRecord) : Int × JournalRow := (signedWord r.sequence, .ofRecord r)

theorem sequence_ofRecord (r : JournalRecord) :
    (JournalRow.ofRecord r).sequence = signedWord r.sequence := by
  simp only [JournalRow.ofRecord]

theorem insertRow_eq_ok_iff : insertRow rows row = .ok rows' ↔
    (row.sequence ∉ rows.keys ∧ ∀ row' ∈ rows.values, row'.recordId ≠ row.recordId) ∧
      rows.insert row.sequence row = rows' := by
  have hids : rows.values.any (·.recordId == row.recordId) = false ↔
      ∀ row' ∈ rows.values, row'.recordId ≠ row.recordId := by
    simp
  rw [insertRow, ← SortedMap.contains_eq_false_iff_notMem, ← hids]
  cases rows.contains row.sequence <;>
    cases rows.values.any (·.recordId == row.recordId) <;> simp

/-- The rows can be stored one after the other: no number and no id is taken or comes twice. -/
structure Fits (rows : SortedMap Int JournalRow) (l : List JournalRow) : Prop where
  numbers : (rows.keys ++ l.map (·.sequence)).Nodup
  ids : (l.map (·.recordId)).Nodup
  fresh : ∀ row ∈ rows.values, row.recordId ∉ l.map (·.recordId)

theorem fits_nil (rows : SortedMap Int JournalRow) : Fits rows [] where
  numbers := by
    rw [List.map_nil, List.append_nil]
    exact rows.nodup_keys
  ids := .nil
  fresh _ _ := List.not_mem_nil

theorem fits_cons_iff : Fits rows (row :: l) ↔
    (row.sequence ∉ rows.keys ∧ ∀ row' ∈ rows.values, row'.recordId ≠ row.recordId) ∧
      Fits (rows.insert row.sequence row) l := by
  constructor
  · rintro ⟨hnumbers, hids, hfresh⟩
    rw [List.map_cons, List.nodup_middle, List.nodup_cons] at hnumbers
    rw [List.map_cons, List.nodup_cons] at hids
    simp only [List.map_cons, List.mem_cons, not_or] at hfresh
    have hnew : row.sequence ∉ rows.keys := fun h => hnumbers.1 (List.mem_append_left _ h)
    have hcontains := SortedMap.contains_eq_false_iff_notMem.2 hnew
    refine ⟨⟨hnew, fun row' hrow' => (hfresh row' hrow').1⟩, ?_, hids.2, ?_⟩
    · rw [((SortedMap.keys_insert_perm hcontains).append_right _).nodup_iff, List.cons_append]
      exact List.nodup_cons.2 hnumbers
    · intro row' hrow'
      rcases List.mem_cons.1 ((SortedMap.values_insert_perm hcontains).subset hrow') with rfl | h
      · exact hids.1
      · exact (hfresh row' h).2
  · rintro ⟨⟨hnew, hid⟩, hnumbers, hids, hfresh⟩
    have hcontains := SortedMap.contains_eq_false_iff_notMem.2 hnew
    have hvalues := SortedMap.values_insert_perm (b := row) hcontains
    refine ⟨?_, ?_, ?_⟩
    · rw [List.map_cons, List.nodup_middle, ← List.cons_append]
      exact ((SortedMap.keys_insert_perm hcontains).append_right _).nodup_iff.1 hnumbers
    · rw [List.map_cons, List.nodup_cons]
      exact ⟨hfresh row (hvalues.symm.subset List.mem_cons_self), hids⟩
    · intro row' hrow' hmem
      rw [List.map_cons, List.mem_cons] at hmem
      rcases hmem with heq | hmem
      · exact hid row' hrow' heq
      · exact hfresh row' (hvalues.symm.subset (List.mem_cons_of_mem _ hrow')) hmem

/-- Rows with others, each under its own number. -/
def insertAll (rows : SortedMap Int JournalRow) (l : List JournalRow) : SortedMap Int JournalRow :=
  l.foldl (fun rows row => rows.insert row.sequence row) rows

theorem foldlM_insertRow_eq_ok_iff :
    l.foldlM insertRow rows = .ok rows' ↔ Fits rows l ∧ insertAll rows l = rows' := by
  induction l generalizing rows with
  | nil =>
    rw [List.foldlM_nil, pure_eq_ok_iff]
    exact (and_iff_right (fits_nil rows)).symm
  | cons row rest ih =>
    simp only [List.foldlM_cons, bind_eq_ok_iff, insertRow_eq_ok_iff, ih, fits_cons_iff]
    constructor
    · rintro ⟨_, ⟨hnew, rfl⟩, hfits, rfl⟩
      exact ⟨⟨hnew, hfits⟩, rfl⟩
    · rintro ⟨⟨hnew, hfits⟩, rfl⟩
      exact ⟨_, ⟨hnew, rfl⟩, hfits, rfl⟩

theorem entries_insertAll_perm (h : Fits rows l) :
    (insertAll rows l).entries.Perm (rows.entries ++ l.map fun row => (row.sequence, row)) := by
  induction l generalizing rows with
  | nil => rw [List.map_nil, List.append_nil]; exact .refl _
  | cons row rest ih =>
    obtain ⟨⟨hnew, -⟩, hfits⟩ := fits_cons_iff.1 h
    have hentries := SortedMap.entries_insert_perm (b := row)
      (SortedMap.contains_eq_false_iff_notMem.2 hnew)
    refine (ih hfits).trans ((hentries.append_right _).trans ?_)
    rw [List.map_cons]
    exact List.perm_middle.symm

/-! ## 2. Batches -/

variable {j j' : Journal} {records records' stored batch : List JournalRecord}

/-- **A batch is stored if the storage takes writes and its rows fit**, and then all of it is. -/
theorem append_eq_ok_iff : j.append records = .ok j' ↔
    j.appendFault = none ∧ Fits j.rows (records.map .ofRecord) ∧
      { j with rows := insertAll j.rows (records.map .ofRecord) } = j' := by
  unfold Journal.append
  cases j.appendFault with
  | some fault => simp
  | none =>
    simp only [bind_eq_ok_iff, pure_eq_ok_iff, foldlM_insertRow_eq_ok_iff, true_and]
    constructor
    · rintro ⟨_, ⟨hfits, rfl⟩, rfl⟩
      exact ⟨hfits, rfl⟩
    · rintro ⟨hfits, rfl⟩
      exact ⟨_, ⟨hfits, rfl⟩, rfl⟩

theorem exists_append_iff :
    (∃ j', j.append records = .ok j') ↔
      j.appendFault = none ∧ Fits j.rows (records.map .ofRecord) := by
  simp only [append_eq_ok_iff]
  constructor
  · rintro ⟨j', hfault, hfits, -⟩
    exact ⟨hfault, hfits⟩
  · rintro ⟨hfault, hfits⟩
    exact ⟨_, hfault, hfits, rfl⟩

/-- The ids can be given to new records: no two of them are one, and no row has one of them. -/
structure Unused (j : Journal) (ids : List Uuid) : Prop where
  nodup : ids.Nodup
  fresh : ∀ row ∈ j.rows.values, row.recordId ∉ ids.map Uuid.toText

/-- The rows of a batch fit by the numbers and the ids of its records. -/
theorem fits_rows_iff : Fits j.rows (records.map .ofRecord) ↔
    (j.rows.keys ++ (records.map (·.sequence)).map signedWord).Nodup ∧
      j.Unused (records.map (·.id)) := by
  have hnumbers : (records.map JournalRow.ofRecord).map (·.sequence) =
      (records.map (·.sequence)).map signedWord := by
    simp only [List.map_map, Function.comp_def, sequence_ofRecord]
  have hids : (records.map JournalRow.ofRecord).map (·.recordId) =
      (records.map (·.id)).map Uuid.toText := by
    simp only [List.map_map, Function.comp_def, JournalRow.ofRecord]
  have htexts : ((records.map JournalRow.ofRecord).map (·.recordId)).Nodup ↔
      (records.map (·.id)).Nodup := by
    rw [hids, List.nodup_map_iff fun _ _ => Uuid.toText_inj]
  rw [← hnumbers]
  constructor
  · rintro ⟨hnodup, htext, hfresh⟩
    exact ⟨hnodup, htexts.1 htext, hids ▸ hfresh⟩
  · rintro ⟨hnodup, hid, hfresh⟩
    exact ⟨hnodup, htexts.2 hid, hids.symm ▸ hfresh⟩

/-- **A journal that takes a batch takes any other with the same numbers and unused ids.** -/
theorem exists_append_of_unused (happend : ∃ j', j.append records = .ok j')
    (hnumbers : records.map (·.sequence) = records'.map (·.sequence))
    (hunused : j.Unused (records'.map (·.id))) : ∃ j', j.append records' = .ok j' := by
  rw [exists_append_iff, fits_rows_iff] at happend ⊢
  exact ⟨happend.1, hnumbers ▸ happend.2.1, hunused⟩

/-! ## 3. Journals that were written to -/

/-- `Written stored j`: batches were offered to an empty journal, some of which it refused.  Now it
is `j`, and `stored` are the records of the others. -/
inductive Written : List JournalRecord → Journal → Prop
  | empty : Written [] .empty
  | taken {stored batch : List JournalRecord} {j j' : Journal} :
      Written stored j → j.append batch = .ok j' → Written (stored ++ batch) j'
  | refused {stored batch : List JournalRecord} {j : Journal} {e : LedgerError} :
      Written stored j → j.append batch = .error e → Written stored j

/-- There is a row for each of the records, and there are no other rows. -/
structure Stores (j : Journal) (stored : List JournalRecord) : Prop where
  fault : j.appendFault = none
  entries : j.rows.entries.Perm (stored.map entryOf)
  ids : (stored.map (·.id)).Nodup

namespace Stores

theorem keys_perm (h : j.Stores stored) :
    j.rows.keys.Perm ((stored.map (·.sequence)).map signedWord) := by
  have hkeys : (stored.map entryOf).map (·.1) = (stored.map (·.sequence)).map signedWord := by
    simp only [List.map_map, Function.comp_def, entryOf]
  exact hkeys ▸ h.entries.map _

/-- No two records have one number. -/
theorem numbers (h : j.Stores stored) : (stored.map (·.sequence)).Nodup :=
  .of_map _ (h.keys_perm.nodup_iff.1 j.rows.nodup_keys)

theorem values_perm (h : j.Stores stored) : j.rows.values.Perm (stored.map .ofRecord) := by
  have hvalues := h.entries.map (·.2)
  rwa [List.map_map] at hvalues

/-- Ids are unused if they do not occur twice with those of the stored records. -/
theorem unused_iff {ids : List Uuid} (h : j.Stores stored) :
    j.Unused ids ↔ (stored.map (·.id) ++ ids).Nodup := by
  have hfresh : (∀ row ∈ j.rows.values, row.recordId ∉ ids.map Uuid.toText) ↔
      (stored.map (·.id)).Disjoint ids := by
    simp only [h.values_perm.mem_iff, List.forall_mem_map, List.disjoint_left,
      JournalRow.ofRecord, List.mem_map_of_injective fun _ _ => Uuid.toText_inj]
  rw [List.nodup_append', and_iff_right h.ids, ← hfresh]
  exact ⟨fun h => ⟨h.nodup, h.fresh⟩, fun h => ⟨h.1, h.2⟩⟩

/-- A batch fits unless a number or an id is taken or comes twice. -/
theorem fits_iff (h : j.Stores stored) : Fits j.rows (batch.map .ofRecord) ↔
    (((stored ++ batch).map (·.sequence)).map signedWord).Nodup ∧
      ((stored ++ batch).map (·.id)).Nodup := by
  rw [fits_rows_iff, h.unused_iff, (h.keys_perm.append_right _).nodup_iff, ← List.map_append,
    ← List.map_append, ← List.map_append]

/-- **A journal takes the next batch exactly if no number and no id is taken or comes twice.** -/
theorem exists_append_iff (h : j.Stores stored)
    (hword : ∀ r ∈ stored ++ batch, r.sequence < wordCount) :
    (∃ j', j.append batch = .ok j') ↔
      ((stored ++ batch).map (·.sequence)).Nodup ∧ ((stored ++ batch).map (·.id)).Nodup := by
  rw [Journal.exists_append_iff, and_iff_right h.fault, h.fits_iff]
  refine and_congr_left fun _ => ⟨.of_map _, .map_on ?_⟩
  simp only [List.forall_mem_map]
  exact fun r hr r' hr' heq => signedWord_inj (hword r hr) (hword r' hr') heq

theorem empty : Stores .empty [] where
  fault := rfl
  entries := .refl _
  ids := .nil

theorem append (h : j.Stores stored) (happend : j.append batch = .ok j') :
    j'.Stores (stored ++ batch) := by
  obtain ⟨hfault, hfits, rfl⟩ := append_eq_ok_iff.1 happend
  refine ⟨hfault, ?_, (h.fits_iff.1 hfits).2⟩
  refine (entries_insertAll_perm hfits).trans ?_
  rw [List.map_append]
  refine h.entries.append ?_
  simp only [List.map_map, Function.comp_def, sequence_ofRecord]
  exact .refl _

/-- The rows are those of the records in the order of their numbers. -/
theorem exists_sorted (h : j.Stores stored) : ∃ sorted : List JournalRecord,
    sorted.Perm stored ∧ j.rows.values = sorted.map .ofRecord ∧
      sorted.Pairwise fun a b => signedWord a.sequence < signedWord b.sequence := by
  have heach : List.Forall₂ (fun e r => e = entryOf r) (stored.map entryOf) stored := by
    rw [List.forall₂_map_left_iff]
    exact List.forall₂_same.2 fun _ _ => rfl
  obtain ⟨sorted, hsorted, hperm⟩ := List.perm_comp_forall₂ h.entries heach
  rw [← List.forall₂_map_right_iff, List.forall₂_eq_eq_eq] at hsorted
  have horder := j.rows.sorted
  rw [hsorted, List.pairwise_map] at horder
  simp only [entryOf, Int.compare_eq_lt] at horder
  refine ⟨sorted, hperm, ?_, horder⟩
  rw [SortedMap.values, hsorted, List.map_map]
  rfl

/-- Records that are in their order already are listed in it. -/
theorem entries_eq (h : j.Stores stored)
    (horder : stored.Pairwise fun a b => signedWord a.sequence < signedWord b.sequence) :
    j.rows.entries = stored.map entryOf := by
  have hsorted : (stored.map entryOf).Pairwise fun a b => compare a.1 b.1 = .lt := by
    rw [List.pairwise_map]
    simpa only [entryOf, Int.compare_eq_lt] using horder
  refine h.entries.eq_of_pairwise (fun a b _ _ hab hba => ?_) j.rows.sorted hsorted
  rw [Int.compare_eq_lt] at hab hba
  omega

end Stores

/-- **A journal has a row for each record that was written to it, and no others.** -/
theorem Written.stores (h : Written stored j) : j.Stores stored := by
  induction h with
  | empty => exact .empty
  | taken _ happend ih => exact ih.append happend
  | refused _ _ ih => exact ih

end Journal
end Reconciliation
