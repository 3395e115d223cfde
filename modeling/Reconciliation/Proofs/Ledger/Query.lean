/-
# What a journal finds

A journal compares signed words and texts, and its rows lie in the order of these words.  For
numbers below half of the words, and for times in years of four digits, that comes to the same as
comparing numbers and instants: a query finds the records between its bounds, in the order that it
asks for and up to its limit, each as it was written.  A larger number turns negative as a bound:
as a lower one it excludes nothing, as an upper one everything.

A record can be stored although what it is about has no name, or its year has five digits.  It is
found like any other, but no record can be made of its row, and a query that comes to it has no
answer.

* `JournalQuery.Asks`, `JournalQuery.selects_ofRecord_iff_asks`: the rows that a query finds;
* `Journal.Stores.exists_found`: what it makes of them;
* `Journal.decodes_what_was_encoded`: records are read back as they were;
* `Journal.Written.filters_by_real_time`: batches and queries in the ranges where words and texts
  tell the truth, and which of these queries have an answer;
* `Journal.Written.bounds_as_signed_words`: all bounds on the number.
-/
import Reconciliation.Proofs.Ledger.Journal
import Reconciliation.Proofs.Time.TextOrder

namespace Reconciliation

/-! ## 1. The rows that a query finds -/

/-- The number and the time of a record are in the ranges where they are compared truly. -/
structure JournalRecord.Comparable (r : JournalRecord) : Prop where
  year : r.timestamp.HasPlainYear
  sequence : r.sequence < signedLimit

namespace JournalQuery

/-- The record is of the exchange that is asked for, and its number and its time lie between the
bounds, which count as inside. -/
def Asks (q : JournalQuery) (r : JournalRecord) : Prop :=
  (∀ e ∈ q.exchange, r.mutation.exchange = e) ∧
  (∀ n ∈ q.startSequence, n ≤ r.sequence) ∧ (∀ n ∈ q.endSequence, r.sequence ≤ n) ∧
  (∀ t ∈ q.startTime, t ≤ r.timestamp) ∧ (∀ t ∈ q.endTime, r.timestamp ≤ t)

instance (q : JournalQuery) : DecidablePred q.Asks := fun _ => inferInstanceAs (Decidable (_ ∧ _))

/-- Whether a record comes before another one in the answer. -/
def Before (q : JournalQuery) (a b : JournalRecord) : Prop :=
  if q.descending then b.sequence < a.sequence else a.sequence < b.sequence

/-- The bounds on the time are in years of four digits. -/
structure PlainYears (q : JournalQuery) : Prop where
  startTime : ∀ t ∈ q.startTime, t.HasPlainYear
  endTime : ∀ t ∈ q.endTime, t.HasPlainYear

/-- The bounds on the number fit signed words. -/
structure SignedBounds (q : JournalQuery) : Prop where
  startSequence : ∀ n ∈ q.startSequence, n < signedLimit
  endSequence : ∀ n ∈ q.endSequence, n < signedLimit

/-- The query for a number. -/
def ofSequence (n : Nat) : JournalQuery := { startSequence := some n, endSequence := some n }

variable {q : JournalQuery} {r : JournalRecord}

theorem holds_eq_true_iff {α : Type} {bound : Option α} {p : α → Bool} :
    holds bound p = true ↔ ∀ a ∈ bound, p a = true := by
  cases bound <;> simp [holds]

/-- Numbers are compared as words, and all else as texts. -/
theorem selects_iff {row : JournalRow} : q.selects row = true ↔
    (∀ e ∈ q.exchange, e.text = row.exchange) ∧
    (∀ n ∈ q.startSequence, signedWord n ≤ row.sequence) ∧
    (∀ n ∈ q.endSequence, row.sequence ≤ signedWord n) ∧
    (∀ t ∈ q.startTime, ¬ row.timestamp < t.toOffsetText) ∧
    (∀ t ∈ q.endTime, ¬ t.toOffsetText < row.timestamp) := by
  simp only [selects, Bool.and_eq_true, holds_eq_true_iff, beq_iff_eq, decide_eq_true_eq,
    Bool.not_eq_true', decide_eq_false_iff_not, and_assoc]

/-- **Where words and texts tell the truth, the rows that are found are those of the records that
are asked for.** -/
theorem selects_ofRecord_iff_asks (hr : r.Comparable) (hq : q.PlainYears) (hq' : q.SignedBounds) :
    q.selects (.ofRecord r) = true ↔ q.Asks r := by
  have hexchange : ∀ e ∈ q.exchange,
      e.text = r.mutation.exchange.text ↔ r.mutation.exchange = e := fun e _ =>
    ⟨fun h => Identifier.ext_text h.symm, fun h => h ▸ rfl⟩
  have hstart : ∀ n ∈ q.startSequence, signedWord n ≤ signedWord r.sequence ↔ n ≤ r.sequence := by
    intro n hn
    rw [signedWord_of_lt (hq'.startSequence n hn), signedWord_of_lt hr.sequence, Int.ofNat_le]
  have hend : ∀ n ∈ q.endSequence, signedWord r.sequence ≤ signedWord n ↔ r.sequence ≤ n := by
    intro n hn
    rw [signedWord_of_lt (hq'.endSequence n hn), signedWord_of_lt hr.sequence, Int.ofNat_le]
  have hfrom : ∀ t ∈ q.startTime,
      ¬ r.timestamp.toOffsetText < t.toOffsetText ↔ t ≤ r.timestamp := by
    intro t ht
    rw [Instant.toOffsetText_lt_iff hr.year (hq.startTime t ht), Instant.le_iff_not_lt]
  have hto : ∀ t ∈ q.endTime, ¬ t.toOffsetText < r.timestamp.toOffsetText ↔ r.timestamp ≤ t := by
    intro t ht
    rw [Instant.toOffsetText_lt_iff (hq.endTime t ht) hr.year, Instant.le_iff_not_lt]
  rw [selects_iff, Asks]
  simp only [JournalRow.ofRecord]
  rw [forall₂_congr hexchange, forall₂_congr hstart, forall₂_congr hend, forall₂_congr hfrom,
    forall₂_congr hto]

theorem selects_ofSequence {n : Nat} {row : JournalRow} :
    (ofSequence n).selects row = true ↔ row.sequence = signedWord n := by
  simp only [selects_iff, ofSequence, Option.mem_def, Option.some.injEq, reduceCtorEq,
    false_imp_iff, implies_true, forall_eq', true_and, and_true]
  omega

theorem cut_subset (q : JournalQuery) (rows : List JournalRow) : q.cut rows ⊆ rows := by
  unfold cut
  split
  · split
    · exact List.Subset.refl _
    · exact List.take_subset _ _
  · exact List.Subset.refl _

theorem cut_eq_take {rows : List JournalRow} (h : rows.length ≤ signedLimit) :
    q.cut rows = rows.take (q.limit.getD rows.length) := by
  unfold cut
  cases q.limit with
  | none => exact (List.take_length ..).symm
  | some n => exact take_signedWord n h

/-- Of some records, those whose rows are found, in the order of the answer. -/
def arrange (q : JournalQuery) (records : List JournalRecord) : List JournalRecord :=
  let found := records.filter fun r => q.selects (.ofRecord r)
  if q.descending then found.reverse else found

theorem arrange_perm (q : JournalQuery) (records : List JournalRecord) :
    (q.arrange records).Perm (records.filter fun r => q.selects (.ofRecord r)) := by
  unfold arrange
  split
  · exact List.reverse_perm _
  · exact .refl _

theorem pairwise_arrange {records : List JournalRecord}
    (h : records.Pairwise fun a b => a.sequence < b.sequence) :
    (q.arrange records).Pairwise q.Before := by
  unfold arrange Before
  cases q.descending with
  | false => exact h.filter _
  | true => exact List.pairwise_reverse.2 (h.filter _)

end JournalQuery

/-! ## 2. What it makes of them -/

namespace Journal

variable {j : Journal} {stored batch l rs : List JournalRecord} {r : JournalRecord}
  {q : JournalQuery}

theorem query_eq (hrows : j.rows.values = l.map .ofRecord) (q : JournalQuery) :
    j.query q = (q.cut ((q.arrange l).map .ofRecord)).mapM JournalRow.toRecord := by
  rw [Journal.query, hrows, List.filter_map, JournalQuery.arrange]
  cases q.descending with
  | false => rfl
  | true =>
    simp only [if_true, ← List.map_reverse]
    rfl

namespace Stores

/-- There are no more records than numbers. -/
theorem length_le (h : j.Stores stored) (hstored : ∀ r ∈ stored, r.sequence < signedLimit) :
    stored.length ≤ signedLimit := by
  have hsub : stored.map (·.sequence) ⊆ List.range signedLimit := by
    intro n hn
    obtain ⟨r, hr, rfl⟩ := List.mem_map.1 hn
    exact List.mem_range.2 (hstored r hr)
  have hle := (List.subperm_of_subset h.numbers hsub).length_le
  rwa [List.length_map, List.length_range] at hle

/-- **A query finds the records whose rows it selects**, in the order of their numbers and up to
its limit, and its answer are these records if all of them can be read. -/
theorem exists_found (h : j.Stores stored) (hstored : ∀ r ∈ stored, r.sequence < signedLimit)
    (p : JournalRecord → Prop) [DecidablePred p]
    (hselects : ∀ r ∈ stored, q.selects (.ofRecord r) = true ↔ p r) :
    ∃ found : List JournalRecord, found.Perm (stored.filter p) ∧ found.Pairwise q.Before ∧
      ∀ rs, j.query q = .ok rs ↔
        rs = found.take (q.limit.getD found.length) ∧ ∀ r ∈ rs, r.Readable := by
  obtain ⟨sorted, hperm, hrows, hsorted⟩ := h.exists_sorted
  have horder : sorted.Pairwise fun a b => a.sequence < b.sequence := by
    refine hsorted.imp_of_mem fun {a b} ha hb hlt => ?_
    rwa [signedWord_of_lt (hstored a (hperm.subset ha)),
      signedWord_of_lt (hstored b (hperm.subset hb)), Int.ofNat_lt] at hlt
  have hfilter : (stored.filter fun r => q.selects (.ofRecord r)) = stored.filter p := by
    refine List.filter_congr fun r hr => ?_
    rw [Bool.eq_iff_iff, decide_eq_true_eq, hselects r hr]
  have hfound : (q.arrange sorted).Perm (stored.filter p) :=
    (q.arrange_perm sorted).trans (hfilter ▸ hperm.filter _)
  have hmem : ∀ r ∈ q.arrange sorted, r ∈ stored := fun r hr =>
    List.mem_of_mem_filter (hfound.subset hr)
  have hlength : ((q.arrange sorted).map JournalRow.ofRecord).length ≤ signedLimit :=
    calc
      ((q.arrange sorted).map JournalRow.ofRecord).length = (stored.filter p).length := by
        rw [List.length_map, hfound.length_eq]
      _ ≤ stored.length := List.length_filter_le _ _
      _ ≤ signedLimit := h.length_le hstored
  refine ⟨q.arrange sorted, hfound, JournalQuery.pairwise_arrange horder, fun rs => ?_⟩
  rw [query_eq hrows, JournalQuery.cut_eq_take hlength, List.length_map, ← List.map_take,
    mapM_toRecord_eq_ok_iff]
  intro r hr
  exact Nat.lt_trans (hstored r (hmem r (List.mem_of_mem_take hr))) (by decide)

/-- **A query for one number finds the record with that number**, whatever the number. -/
theorem query_ofSequence (h : j.Stores stored) (hword : ∀ r ∈ stored, r.sequence < wordCount)
    (hr : r ∈ stored) (hreadable : r.Readable) :
    j.query (.ofSequence r.sequence) = .ok [r] := by
  obtain ⟨sorted, hperm, hrows, -⟩ := h.exists_sorted
  have hnumbers : (sorted.map (·.sequence)).Nodup := (hperm.map _).nodup_iff.2 h.numbers
  have hrsorted := hperm.symm.subset hr
  have hselects : ∀ r' ∈ sorted,
      (JournalQuery.ofSequence r.sequence).selects (.ofRecord r') = (r' == r) := by
    intro r' hr'
    rw [Bool.eq_iff_iff, JournalQuery.selects_ofSequence, sequence_ofRecord, beq_iff_eq]
    constructor
    · intro heq
      exact List.inj_on_of_nodup_map hnumbers hr' hrsorted
        (signedWord_inj (hword r' (hperm.subset hr')) (hword r hr) heq)
    · rintro rfl
      rfl
  have hfilter : j.rows.values.filter (JournalQuery.ofSequence r.sequence).selects =
      [.ofRecord r] := by
    rw [hrows, List.filter_map, Function.comp_def, List.filter_congr hselects, List.filter_beq,
      List.count_eq_one_of_mem (.of_map _ hnumbers) hrsorted]
    rfl
  rw [Journal.query, hfilter]
  show [JournalRow.ofRecord r].mapM JournalRow.toRecord = _
  rw [List.mapM_cons, JournalRow.toRecord_ofRecord hreadable (hword r hr)]
  rfl

/-- **What a query tells under the number of a record is that record.** -/
theorem eq_of_mem_query (h : j.Stores stored) (hword : ∀ r ∈ stored, r.sequence < wordCount)
    (hr : r ∈ stored) (hquery : j.query q = .ok rs) {r' : JournalRecord} (hr' : r' ∈ rs)
    (hsequence : r'.sequence = r.sequence) : r' = r := by
  obtain ⟨row, hrow, hread⟩ := exists_of_mem_mapM hquery hr'
  have hmem : row ∈ j.rows.values := by
    have hfound := q.cut_subset _ hrow
    split at hfound
    · exact List.mem_of_mem_filter (List.mem_reverse.1 hfound)
    · exact List.mem_of_mem_filter hfound
  obtain ⟨r'', hr'', rfl⟩ := List.mem_map.1 (h.values_perm.subset hmem)
  obtain ⟨-, rfl⟩ := (JournalRow.toRecord_ofRecord_eq_ok_iff (hword r'' hr'')).1 hread
  exact List.inj_on_of_nodup_map h.numbers hr'' hr hsequence

end Stores

/-! ## 3. Records as they were written -/

/-- **Decoding undoes encoding.**  A change whose parts have names is read from its JSON text as it
was: its kind, all of its texts and times, and its decimals with the places that they were written
with.  So is the record of such a change from a journal: a query for its number finds it, and
nothing else is ever told under that number. -/
theorem decodes_what_was_encoded :
    (∀ m : LedgerMutation, m.Storable →
      (Json.ofText? m.toJson.compact).bind LedgerMutation.ofJson? = some m) ∧
    ∀ (stored : List JournalRecord) (j : Journal), Written stored j →
      (∀ r ∈ stored, r.sequence < wordCount) → ∀ r ∈ stored,
      (r.Readable → j.query (.ofSequence r.sequence) = .ok [r]) ∧
      ∀ q rs r', j.query q = .ok rs → r' ∈ rs → r'.sequence = r.sequence → r' = r := by
  refine ⟨fun m hm => LedgerMutation.ofText?_payload hm,
    fun stored j h hword r hr => ⟨fun hreadable => ?_, fun q rs r' hquery hr' hsequence => ?_⟩⟩
  · exact h.stores.query_ofSequence hword hr hreadable
  · exact h.stores.eq_of_mem_query hword hr hquery hr' hsequence

/-- An order with a price of two places, a text in another script, and the time of a leap second. -/
theorem decodes_order_at_leap_second :
    let order : Order :=
      ⟨"№ 1", .of .exchange "paper", .of .symbol "BTCUSDT", .buy, .one,
        some ⟨150, 2, by decide, by decide⟩, .zero, none, .accepted, some "заявка",
        ⟨59, 1000000000, by decide, by decide⟩⟩
    let r : JournalRecord := ⟨default, 1, order.updatedAt, "order", .upsertOrder order⟩
    (Json.ofText? r.mutation.toJson.compact).bind LedgerMutation.ofJson? = some r.mutation ∧
      (single r).query (.ofSequence 1) = .ok [r] := by
  intro order r
  have hreadable : r.Readable := ⟨⟨by decide, by decide, by decide⟩, ⟨by decide, by decide⟩⟩
  have hwritten : Written [r] (single r) := .taken .empty (append_empty r)
  have hword : ∀ r' ∈ [r], r'.sequence < wordCount := List.forall_mem_singleton.2 (by decide)
  exact ⟨decodes_what_was_encoded.1 r.mutation hreadable.mutation,
    (decodes_what_was_encoded.2 [r] (single r) hwritten hword r List.mem_cons_self).1 hreadable⟩

/-! ## 4. Records between bounds -/

/-- **Queries filter by real time.**  A journal to which any batches were written, with numbers
below half of the words and times in years of four digits, takes the next batch exactly if no
number and no id is taken or comes twice.  A query with bounds in these ranges finds exactly the
stored records of its exchange whose number and whose instant lie between the bounds, in the order
of the numbers or in the opposite order, and it comes to those up to its limit.  It has an answer
exactly if all that it comes to can be read back, and then these records are its answer.  Otherwise
it fails because a row cannot be read. -/
theorem Written.filters_by_real_time (h : Written stored j)
    (hstored : ∀ r ∈ stored, r.Comparable) :
    (∀ batch, (∀ r ∈ batch, r.sequence < signedLimit) →
      ((∃ j', j.append batch = .ok j') ↔
        ((stored ++ batch).map (·.sequence)).Nodup ∧ ((stored ++ batch).map (·.id)).Nodup)) ∧
    ∀ q : JournalQuery, q.PlainYears → q.SignedBounds →
      ∃ found : List JournalRecord,
        found.Perm (stored.filter q.Asks) ∧ found.Pairwise q.Before ∧
        ((∃ rs, j.query q = .ok rs) ↔
          ∀ r ∈ found.take (q.limit.getD found.length), r.Readable) ∧
        (∀ rs, j.query q = .ok rs → rs = found.take (q.limit.getD found.length)) ∧
        ∀ e, j.query q = .error e → ∃ text, e = .serialization text := by
  have hsequence : ∀ r ∈ stored, r.sequence < signedLimit := fun r hr => (hstored r hr).sequence
  refine ⟨fun batch hbatch => ?_, fun q hyears hbounds => ?_⟩
  · have hword : ∀ r ∈ stored ++ batch, r.sequence < wordCount := fun r hr =>
      Nat.lt_trans ((List.mem_append.1 hr).elim (hsequence r) (hbatch r)) (by decide)
    exact h.stores.exists_append_iff hword
  · obtain ⟨found, hperm, horder, hquery⟩ := h.stores.exists_found hsequence q.Asks fun r hr =>
      JournalQuery.selects_ofRecord_iff_asks (hstored r hr) hyears hbounds
    refine ⟨found, hperm, horder, ⟨?_, fun hreadable => ?_⟩, fun rs hrs => ((hquery rs).1 hrs).1,
      fun e => serialization_of_query⟩
    · rintro ⟨rs, hrs⟩
      obtain ⟨rfl, hreadable⟩ := (hquery rs).1 hrs
      exact hreadable
    · exact ⟨_, (hquery _).2 ⟨rfl, hreadable⟩⟩

/-- A record of a deposit. -/
def deposited : JournalRecord :=
  ⟨default, 1, .epoch, "deposit",
    .setBalance (.of .exchange "paper") (.of .asset "USDT") (.ofFree .one)⟩

theorem written_deposited : Written [deposited] (single deposited) :=
  .taken .empty (append_empty deposited)

theorem readable_deposited : deposited.Readable := ⟨⟨by decide, by decide⟩, ⟨by decide, by decide⟩⟩

/-- The newest record from the time of the deposit on. -/
theorem filters_deposit_by_real_time :
    (single deposited).query { startTime := some .epoch, limit := some 1, descending := true } =
      .ok [deposited] := by
  have hyears : JournalQuery.PlainYears
      { startTime := some .epoch, limit := some 1, descending := true } := {
    startTime := fun t ht => Option.some.inj ht ▸ ⟨by decide, by decide⟩
    endTime := fun _ ht => nomatch ht }
  have hbounds : JournalQuery.SignedBounds
      { startTime := some .epoch, limit := some 1, descending := true } := {
    startSequence := fun _ hn => nomatch hn
    endSequence := fun _ hn => nomatch hn }
  have hstored : ∀ r ∈ [deposited], r.Comparable :=
    List.forall_mem_singleton.2 ⟨readable_deposited.year, by decide⟩
  obtain ⟨found, hperm, -, hanswers, htold, -⟩ :=
    (written_deposited.filters_by_real_time hstored).2 _ hyears hbounds
  obtain rfl : found = [deposited] := List.perm_singleton.1 hperm
  obtain ⟨rs, hrs⟩ := hanswers.2 (List.forall_mem_singleton.2 readable_deposited)
  obtain rfl := htold rs hrs
  exact hrs

/-- A record of a deposit at an exchange without a name. -/
def nameless : JournalRecord :=
  ⟨default, 1, .epoch, "deposit",
    .setBalance (.of .exchange "") (.of .asset "USDT") (.ofFree .one)⟩

/-- The journal takes the record although its exchange has no name, and a query that asks for it
fails, with the number and the time of the record in the ranges that are compared truly. -/
theorem nameless_deposit_has_no_answer :
    append .empty [nameless] = .ok (single nameless) ∧ nameless.Comparable ∧
      ({} : JournalQuery).PlainYears ∧ ({} : JournalQuery).SignedBounds ∧
      ({} : JournalQuery).Asks nameless ∧
      ∃ text, (single nameless).query {} = .error (.serialization text) := by
  have hyears : ({} : JournalQuery).PlainYears := {
    startTime := fun t ht => absurd ht (Option.not_mem_none t)
    endTime := fun t ht => absurd ht (Option.not_mem_none t) }
  have hbounds : ({} : JournalQuery).SignedBounds := {
    startSequence := fun n hn => absurd hn (Option.not_mem_none n)
    endSequence := fun n hn => absurd hn (Option.not_mem_none n) }
  refine ⟨append_empty nameless, ⟨⟨by decide, by decide⟩, by decide⟩, hyears, hbounds,
    by decide, ?_⟩
  cases hquery : (single nameless).query {} with
  | error e =>
    obtain ⟨text, rfl⟩ := serialization_of_query hquery
    exact ⟨text, rfl⟩
  | ok rs =>
    have hrows : (single nameless).rows.values = [nameless].map .ofRecord := by
      rw [SortedMap.values, entries_single]
      rfl
    rw [query_all, hrows, mapM_toRecord_eq_ok_iff (List.forall_mem_singleton.2 (by decide))]
      at hquery
    obtain ⟨rfl, hreadable⟩ := hquery
    have hexchange := (hreadable nameless List.mem_cons_self).mutation.1
    exact absurd hexchange (by decide)

/-- **Bounds on the number are read as signed words.**  Whatever the bounds, a query for numbers
finds the records in their order, and a bound below half of the words means what it says.  A
larger lower bound excludes nothing, and a larger upper bound excludes everything. -/
theorem Written.bounds_as_signed_words (h : Written stored j)
    (hstored : ∀ r ∈ stored, r.sequence < signedLimit) (startSequence endSequence : Option Nat)
    (hstart : ∀ n ∈ startSequence, n < wordCount) (hend : ∀ n ∈ endSequence, n < wordCount) :
    ∃ found : List JournalRecord,
      found.Perm (stored.filter fun r =>
        (∀ n ∈ startSequence, n < signedLimit → n ≤ r.sequence) ∧
          ∀ n ∈ endSequence, n < signedLimit ∧ r.sequence ≤ n) ∧
      found.Pairwise (fun a b => a.sequence < b.sequence) ∧
      ∀ rs, j.query { startSequence, endSequence } = .ok rs ↔
        rs = found ∧ ∀ r ∈ rs, r.Readable := by
  have hselects : ∀ r ∈ stored,
      JournalQuery.selects { startSequence, endSequence } (.ofRecord r) = true ↔
        (∀ n ∈ startSequence, n < signedLimit → n ≤ r.sequence) ∧
          ∀ n ∈ endSequence, n < signedLimit ∧ r.sequence ≤ n := by
    intro r hr
    simp only [JournalQuery.selects_iff, sequence_ofRecord, Option.mem_def, reduceCtorEq,
      false_imp_iff, implies_true, true_and, and_true]
    refine and_congr (forall₂_congr fun n hn => ?_) (forall₂_congr fun n hn => ?_)
    · exact signedWord_le_iff (hstart n hn) (hstored r hr)
    · exact le_signedWord_iff (hend n hn) (hstored r hr)
  obtain ⟨found, hperm, horder, hquery⟩ := h.stores.exists_found hstored _ hselects
  refine ⟨found, hperm, horder, fun rs => ?_⟩
  rw [hquery, Option.getD_none, List.take_length]

/-- A lower bound that turns negative, and an upper one that means what it says. -/
theorem bounds_on_deposit_as_signed_words :
    (single deposited).query { startSequence := some signedLimit, endSequence := some 1 } =
      .ok [deposited] := by
  obtain ⟨found, hperm, -, hquery⟩ :=
    written_deposited.bounds_as_signed_words (List.forall_mem_singleton.2 (by decide))
      (some signedLimit) (some 1) (fun n hn => Option.some.inj hn ▸ by decide)
      (fun n hn => Option.some.inj hn ▸ by decide)
  obtain rfl : found = [deposited] := List.perm_singleton.1 hperm
  exact (hquery _).2 ⟨rfl, List.forall_mem_singleton.2 readable_deposited⟩

/-- With the largest word as an upper bound nothing is found, and a lower bound above the only
number does not keep it out. -/
theorem last_word_excludes_everything :
    Written [deposited] (single deposited) ∧ deposited.sequence ≤ wordCount - 1 ∧
      (single deposited).query { endSequence := some (wordCount - 1) } = .ok [] ∧
      deposited.sequence < signedLimit ∧
      (single deposited).query { startSequence := some signedLimit } = .ok [deposited] := by
  have hrow : (single deposited).rows.values = [.ofRecord deposited] := by
    rw [SortedMap.values, entries_single, List.map_singleton]
  have hread : JournalRow.toRecord (.ofRecord deposited) = .ok deposited :=
    JournalRow.toRecord_ofRecord readable_deposited (by decide)
  have hnone : JournalQuery.selects { endSequence := some (wordCount - 1) }
      (.ofRecord deposited) = false := rfl
  have hall : JournalQuery.selects { startSequence := some signedLimit }
      (.ofRecord deposited) = true := rfl
  refine ⟨written_deposited, by decide, ?_, by decide, ?_⟩
  · rw [Journal.query, hrow, List.filter_cons_of_neg (by rw [hnone]; exact Bool.false_ne_true)]
    rfl
  · rw [Journal.query, hrow, List.filter_cons_of_pos hall]
    show [JournalRow.ofRecord deposited].mapM JournalRow.toRecord = _
    rw [List.mapM_cons, hread]
    rfl

end Journal

end Reconciliation
