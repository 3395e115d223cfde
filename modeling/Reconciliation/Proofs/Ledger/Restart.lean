/-
# Restarts of a ledger

A ledger that keeps a journal may be dropped and opened again at any time, and nothing tells the
difference.  The invariant that carries this is that the books are what the journal's records
make of empty ones: a post appends to both, a refused post to neither, and a replay starts from
the records and arrives at the books.

* `Lifetime`: what may happen to a ledger and its journal, with the changes that were accepted;
* `Kept`: the invariant;
* `Lifetime.restart_transparent`: the journal holds just these changes, and a restart brings the
  ledger back as it was.
-/
import Reconciliation.Proofs.Ledger.Journal
import Reconciliation.Proofs.Ledger.Posting

namespace Reconciliation
namespace LedgerBook

/-! ## 1. Lifetimes -/

/-- `Lifetime log b`: a ledger was opened on an empty journal; since then batches were posted,
some refused, it was stopped and started, its storage refused to write and recovered, and any
number of times it was dropped and opened again from the journal, with whatever settings.  Now it
is `b`, and `log` are the changes of the accepted batches.  All clocks showed four-digit years. -/
inductive Lifetime : List LedgerMutation → LedgerBook → Prop
  | opened {settings : LedgerSettings} {now : Instant} {b : LedgerBook} :
      now.HasPlainYear → replay settings now .empty = .ok b → Lifetime [] b
  | posted {log : List LedgerMutation} {b b' : LedgerBook} {now : Instant}
      {mutations : List LedgerMutation} {reference : String} {ids : Nat → Uuid}
      {s : LedgerState} :
      Lifetime log b → now.HasPlainYear → (∀ m ∈ mutations, m.Storable) →
      log.length + mutations.length < signedLimit →
      (post now mutations reference ids).run b = .ok s b' → Lifetime (log ++ mutations) b'
  | refused {log : List LedgerMutation} {b b' : LedgerBook} {now : Instant}
      {mutations : List LedgerMutation} {reference : String} {ids : Nat → Uuid}
      {e : LedgerError} :
      Lifetime log b → (post now mutations reference ids).run b = .error e b' → Lifetime log b'
  | restarted {log : List LedgerMutation} {b b' : LedgerBook} {j : Journal}
      {settings : LedgerSettings} {now : Instant} :
      Lifetime log b → b.journal = some j → now.HasPlainYear →
      replay settings now j = .ok b' → Lifetime log b'
  | switched {log : List LedgerMutation} {b : LedgerBook} (running : Bool) :
      Lifetime log b → Lifetime log (b.setRunning running)
  | faulty {log : List LedgerMutation} {b : LedgerBook} {j : Journal}
      (appendFault : Option StorageFault) :
      Lifetime log b → b.journal = some j →
      Lifetime log { b with journal := some { j with appendFault } }

/-! ## 2. The records of a batch -/

theorem numbered_numberedRecords (start : Nat) (time : Instant) (reference : String)
    (ids : Nat → Uuid) (mutations : List LedgerMutation) :
    Numbered start (numberedRecords start time reference ids mutations) := by
  rw [Numbered, map_sequence_numberedRecords, length_numberedRecords]

/-- The records of a batch that the log has room for can be stored. -/
theorem storable_of_mem_numberedRecords {start : Nat} {time : Instant} {reference : String}
    {ids : Nat → Uuid} {mutations : List LedgerMutation} (htime : time.HasPlainYear)
    (hmutations : ∀ m ∈ mutations, m.Storable) (hroom : start + mutations.length < signedLimit)
    {r : JournalRecord} (hr : r ∈ numberedRecords start time reference ids mutations) :
    r.Storable := by
  have hle := ((numbered_numberedRecords ..).sequence_le hr).2
  rw [length_numberedRecords] at hle
  have hmem : r.mutation ∈ mutations := by
    rw [← map_mutation_numberedRecords start time reference ids mutations]
    exact List.mem_map_of_mem hr
  exact {
    mutation := hmutations _ hmem
    year := timestamp_of_mem_numberedRecords _ _ _ _ hr ▸ htime
    sequence := by omega }

/-! ## 3. Replaying records -/

theorem foldlM_replayRecord_eq_ok_iff {records : List JournalRecord} {books books' : AccountBooks} :
    records.foldlM replayRecord books = .ok books' ↔
      AccountBooks.applyAll books (records.map (·.mutation)) = .ok books' := by
  induction records generalizing books with
  | nil => exact Iff.rfl
  | cons r rest ih =>
    simp only [List.foldlM_cons, List.map_cons, AccountBooks.applyAll_cons, bind_eq_ok_iff, ih,
      replayRecord, mapError_eq_ok_iff]

/-- The state that records lead to: their books, with the number and the time of the last one.  It
counts as one version, or as none. -/
theorem exists_replayState {records : List JournalRecord} {books : AccountBooks}
    (h : AccountBooks.applyAll .empty (records.map (·.mutation)) = .ok books) (now : Instant) :
    ∃ s, replayState now records = .ok s ∧ s.books = books ∧ s.version ≤ records.length ∧
      (records.getLast? = none → s.committedAt = now) ∧
      ∀ r, records.getLast? = some r → s.sequence = r.sequence ∧ s.committedAt = r.timestamp := by
  unfold replayState
  cases hlast : records.getLast? with
  | none =>
    rw [List.getLast?_eq_none_iff.1 hlast] at h
    cases h
    exact ⟨_, rfl, rfl, Nat.zero_le _, fun _ => rfl, fun _ hr => nomatch hr⟩
  | some last =>
    have hpos : 1 ≤ records.length := List.length_pos_of_mem (List.mem_of_getLast? hlast)
    refine ⟨⟨1, last.sequence, last.timestamp, books⟩, ?_, rfl, hpos, nofun, fun r hr => ?_⟩
    · simp only [bind_eq_ok_iff, pure_eq_ok_iff]
      exact ⟨books, foldlM_replayRecord_eq_ok_iff.2 h, rfl⟩
    · cases hr
      exact ⟨rfl, rfl⟩

/-! ## 4. The invariant -/

/-- The journal holds the records that the book was made by: replayed, they give the latest
books, and the last of them is where the counter and the clock of the latest state stand.  There are
no more versions than records. -/
structure Kept (b : LedgerBook) (j : Journal) (records : List JournalRecord) : Prop where
  journal : b.journal = some j
  answers : j.latestFault = none
  holds : j.Holds records
  counter : b.lastSequence = records.length
  version : b.latest.version ≤ records.length
  books : AccountBooks.applyAll .empty (records.map (·.mutation)) = .ok b.latest.books
  clock : b.latest.committedAt.HasPlainYear
  latest : ∀ r, records.getLast? = some r →
    b.latest.sequence = r.sequence ∧ b.latest.committedAt = r.timestamp

variable {b b' : LedgerBook} {j : Journal} {records : List JournalRecord} {now : Instant}
  {mutations : List LedgerMutation} {reference : String} {ids : Nat → Uuid} {s : LedgerState}
  {e : LedgerError}

/-- The counter starts behind the last record. -/
theorem Kept.counter_of_latestSequence (h : Kept b j records) :
    j.latestSequence = .ok (records.getLast?.map (·.sequence)) ∧
      (records.getLast?.map (·.sequence)).getD 0 = records.length := by
  refine ⟨h.holds.latestSequence h.answers, ?_⟩
  cases hlast : records.getLast? with
  | none => simp [List.getLast?_eq_none_iff.1 hlast]
  | some r =>
    have := h.holds.numbered.sequence_of_getLast? hlast
    rw [Option.map_some, Option.getD_some]
    omega

/-- **Replaying what is kept succeeds**, whatever the settings and the clock. -/
theorem Kept.exists_replay (h : Kept b j records) (settings : LedgerSettings) (now : Instant) :
    ∃ s, replay settings now j =
        .ok { ofState settings s with lastSequence := records.length, journal := some j } ∧
      s.books = b.latest.books ∧ s.version ≤ records.length ∧
      (records.getLast? = none → s.committedAt = now) ∧
      ∀ r, records.getLast? = some r →
        s.sequence = r.sequence ∧ s.committedAt = r.timestamp := by
  obtain ⟨s, hs, hbooks, hversion, hfirst, hlast⟩ := exists_replayState h.books now
  obtain ⟨hlatest, hcounter⟩ := h.counter_of_latestSequence
  refine ⟨s, ?_, hbooks, hversion, hfirst, hlast⟩
  simp only [replay, bind_eq_ok_iff, pure_eq_ok_iff]
  exact ⟨records, h.holds.query, s, hs, _, hlatest, by rw [hcounter]⟩

/-- A book replayed from what another kept keeps it too. -/
theorem Kept.of_replay (h : Kept b j records) {settings : LedgerSettings}
    (hnow : now.HasPlainYear) (hreplay : replay settings now j = .ok b') : Kept b' j records := by
  obtain ⟨s, hs, hbooks, hversion, hfirst, hlast⟩ := h.exists_replay settings now
  rw [hreplay, Except.ok.injEq] at hs
  subst hs
  refine {
    journal := rfl
    answers := h.answers
    holds := h.holds
    counter := rfl
    version := hversion
    books := hbooks ▸ h.books
    clock := ?_
    latest := hlast }
  cases hr : records.getLast? with
  | none => exact (hfirst hr).symm ▸ hnow
  | some r => exact (hlast r hr).2.symm ▸ (h.holds.storable r (List.mem_of_getLast? hr)).year

/-- A new ledger keeps nothing. -/
theorem kept_of_opened {settings : LedgerSettings} (hnow : now.HasPlainYear)
    (hreplay : replay settings now .empty = .ok b) : Kept b .empty [] := by
  have hfresh : Kept { fresh settings now with journal := some .empty } .empty [] := {
    journal := rfl
    answers := rfl
    holds := Journal.holds_empty
    counter := rfl
    version := Nat.le_refl 0
    books := rfl
    clock := hnow
    latest := fun _ hr => nomatch hr }
  exact hfresh.of_replay hnow hreplay

/-- What is known of the records of a batch. -/
theorem Kept.recordsFor (h : Kept b j records) (reference : String) (ids : Nat → Uuid)
    (hnow : now.HasPlainYear) (hmutations : ∀ m ∈ mutations, m.Storable)
    (hroom : records.length + mutations.length < signedLimit) :
    Numbered records.length (b.recordsFor now mutations reference ids) ∧
      ∀ r ∈ b.recordsFor now mutations reference ids, r.Storable := by
  rw [LedgerBook.recordsFor, h.counter]
  exact ⟨numbered_numberedRecords ..,
    fun r hr => storable_of_mem_numberedRecords (hnow.max h.clock) hmutations hroom hr⟩

/-- There is always a next version. -/
theorem Kept.version_lt (h : Kept b j records) : b.latest.version + 1 < wordCount := by
  have hversion := h.version
  have hlength := h.holds.length_lt
  simp only [signedLimit] at hlength
  simp only [wordCount]
  omega

/-- A refused batch leaves the book as it is. -/
theorem Kept.eq_of_error (h : Kept b j records)
    (hrun : (post now mutations reference ids).run b = .error e b') : b' = b :=
  eq_of_error_of_version hrun h.version_lt

/-- **An accepted batch is kept behind the records before it.** -/
theorem Kept.of_posted (h : Kept b j records) (hnow : now.HasPlainYear)
    (hmutations : ∀ m ∈ mutations, m.Storable)
    (hroom : records.length + mutations.length < signedLimit)
    (hposted : Posted b now mutations reference ids s b') :
    ∃ j', Kept b' j' (records ++ b.recordsFor now mutations reference ids) := by
  cases hposted with
  | nothing _ hnil =>
    subst hnil
    refine ⟨j, ?_⟩
    have : b.recordsFor now [] reference ids = [] := rfl
    rwa [this, List.append_nil]
  | @published books journal htaken _ =>
    obtain ⟨hnumbered, hstorable⟩ := h.recordsFor reference ids hnow hmutations hroom
    have hjournal := htaken.journal
    rw [h.journal, Option.mapM_some] at hjournal
    obtain ⟨j', happend, rfl⟩ := map_eq_ok_iff.1 hjournal
    obtain ⟨hlatestFault, hholds⟩ := h.holds.of_append hnumbered hstorable happend
    have hlength : (b.recordsFor now mutations reference ids).length = mutations.length :=
      length_numberedRecords ..
    have hcounter : b.lastSequence + mutations.length = records.length + mutations.length := by
      rw [h.counter]
    have hpos := List.length_pos_iff.2 htaken.changes
    refine ⟨j', {
      journal := rfl
      answers := hlatestFault.trans h.answers
      holds := hholds
      counter := ?_
      version := ?_
      books := ?_
      clock := hnow.max h.clock
      latest := fun r hr => ?_ }⟩
    · rw [List.length_append, hlength]
      exact hcounter
    · have hversion := h.version
      show b.latest.version + 1 ≤ _
      rw [List.length_append, hlength]
      omega
    · have hmap : (b.recordsFor now mutations reference ids).map (·.mutation) = mutations :=
        map_mutation_numberedRecords ..
      rw [List.map_append, hmap, AccountBooks.applyAll_append, h.books]
      exact htaken.books
    · obtain ⟨last, hlast⟩ :
          ∃ last, (b.recordsFor now mutations reference ids).getLast? = some last := by
        rw [← Option.ne_none_iff_exists', ne_eq, List.getLast?_eq_none_iff,
          ← List.length_eq_zero_iff, hlength, List.length_eq_zero_iff]
        exact htaken.changes
      rw [List.getLast?_append, hlast, Option.some_or, Option.some.injEq] at hr
      subst hr
      have hsequence := hnumbered.sequence_of_getLast? hlast
      have htime := timestamp_of_mem_numberedRecords _ _ _ _ (List.mem_of_getLast? hlast)
      refine ⟨?_, htime.symm⟩
      rw [hsequence, hlength]
      exact hcounter

/-- A storage that takes writes takes every batch that the books take, if no id is used. -/
theorem Kept.exists_posted (h : Kept b j records) (reference : String) (hnow : now.HasPlainYear)
    (hmutations : ∀ m ∈ mutations, m.Storable)
    (hroom : records.length + mutations.length < signedLimit) (hrunning : b.running = true)
    (hfault : j.appendFault = none) (hunused : j.Unused ((List.range mutations.length).map ids))
    {books : AccountBooks} (hbooks : AccountBooks.applyAll b.latest.books mutations = .ok books) :
    ∃ s b', Posted b now mutations reference ids s b' := by
  by_cases hne : mutations = []
  · exact ⟨_, _, .nothing hrunning hne⟩
  obtain ⟨hnumbered, hstorable⟩ := h.recordsFor reference ids hnow hmutations hroom
  have hids : j.Unused ((b.recordsFor now mutations reference ids).map (·.id)) := by
    rw [LedgerBook.recordsFor, map_id_numberedRecords]
    exact hunused
  obtain ⟨j', happend⟩ := h.holds.exists_append hfault hnumbered hstorable hids
  have htaken : Taken b now mutations reference ids books (some j') := {
    running := hrunning
    changes := hne
    books := hbooks
    numbers := h.counter ▸ Nat.lt_trans hroom (by decide)
    journal := by
      rw [h.journal, Option.mapM_some, happend]
      rfl }
  exact ⟨_, _, .published htaken h.version_lt⟩

/-! ## 5. The claim of a lifetime -/

/-- Whatever happens to a ledger, its journal keeps what it was told. -/
theorem Lifetime.exists_kept {log : List LedgerMutation} (h : Lifetime log b) :
    ∃ j records, Kept b j records ∧ records.map (·.mutation) = log := by
  induction h with
  | opened hnow hreplay => exact ⟨.empty, [], kept_of_opened hnow hreplay, rfl⟩
  | @posted log b b' now mutations reference ids s _ hnow hmutations hroom hrun ih =>
    obtain ⟨j, records, hkept, rfl⟩ := ih
    rw [List.length_map] at hroom
    obtain ⟨j', hkept'⟩ := hkept.of_posted hnow hmutations hroom (run_post_ok_iff.1 hrun)
    refine ⟨j', _, hkept', ?_⟩
    rw [List.map_append]
    exact congrArg _ (map_mutation_numberedRecords ..)
  | refused _ hrun ih =>
    obtain ⟨j, records, hkept, hlog⟩ := ih
    exact ⟨j, records, hkept.eq_of_error hrun ▸ hkept, hlog⟩
  | restarted _ hj hnow hreplay ih =>
    obtain ⟨j, records, hkept, hlog⟩ := ih
    rw [hkept.journal, Option.some.injEq] at hj
    subst hj
    exact ⟨j, records, hkept.of_replay hnow hreplay, hlog⟩
  | switched running _ ih =>
    obtain ⟨j, records, hkept, hlog⟩ := ih
    exact ⟨j, records, { hkept with }, hlog⟩
  | faulty appendFault _ hj ih =>
    obtain ⟨j, records, hkept, hlog⟩ := ih
    rw [hkept.journal, Option.some.injEq] at hj
    subst hj
    exact ⟨_, records, { hkept with journal := rfl, holds := hkept.holds.withFaults _ _ }, hlog⟩

/-- The records of the next accepted batch, as the journal tells them. -/
theorem Kept.query_of_posted (h : Kept b j records) (hnow : now.HasPlainYear)
    (hmutations : ∀ m ∈ mutations, m.Storable)
    (hroom : records.length + mutations.length < signedLimit)
    (hposted : Posted b now mutations reference ids s b') :
    ∃ j' next, b'.journal = some j' ∧ j'.query {} = .ok (records ++ next) ∧
      next.map (·.mutation) = mutations ∧
      next.map (·.sequence) = List.range' (records.length + 1) mutations.length := by
  obtain ⟨j', hkept⟩ := h.of_posted hnow hmutations hroom hposted
  refine ⟨j', _, hkept.journal, hkept.holds.query, map_mutation_numberedRecords .., ?_⟩
  rw [LedgerBook.recordsFor, map_sequence_numberedRecords, h.counter]

/-- **Restarts are transparent.**  At any time of a ledger's life, restarts included:

* the journal tells exactly the changes of the accepted batches, in their order, numbered from 1
  without a gap;
* a replay of the journal succeeds, whatever the settings and the clock, and gives the books, and
  if anything was ever accepted also the sequence number and the time, of the latest state;
* the next accepted batch is told behind the rest, numbered from where the rest ends;
* and unless the storage fails, a running ledger accepts every batch that its books take, provided
  that the ids drawn for its records are different and no stored record has one of them. -/
theorem Lifetime.restart_transparent {log : List LedgerMutation} (h : Lifetime log b) :
    ∃ j records, b.journal = some j ∧ j.query {} = .ok records ∧
      records.map (·.mutation) = log ∧
      records.map (·.sequence) = List.range' 1 log.length ∧
      (∀ settings now, ∃ b', replay settings now j = .ok b' ∧
        b'.latest.books = b.latest.books ∧
        (log ≠ [] → b'.latest.sequence = b.latest.sequence ∧
          b'.latest.committedAt = b.latest.committedAt)) ∧
      (∀ now mutations reference ids s b', now.HasPlainYear → (∀ m ∈ mutations, m.Storable) →
        log.length + mutations.length < signedLimit →
        (post now mutations reference ids).run b = .ok s b' →
        ∃ j' next, b'.journal = some j' ∧ j'.query {} = .ok (records ++ next) ∧
          next.map (·.mutation) = mutations ∧
          next.map (·.sequence) = List.range' (log.length + 1) mutations.length) ∧
      (∀ now mutations reference ids books, now.HasPlainYear → (∀ m ∈ mutations, m.Storable) →
        log.length + mutations.length < signedLimit → b.running = true → j.appendFault = none →
        j.Unused ((List.range mutations.length).map ids) →
        AccountBooks.applyAll b.latest.books mutations = .ok books →
        ∃ s b', (post now mutations reference ids).run b = .ok s b') := by
  obtain ⟨j, records, hkept, rfl⟩ := h.exists_kept
  rw [List.length_map]
  refine ⟨j, records, hkept.journal, hkept.holds.query, rfl, hkept.holds.numbered,
    fun settings now => ?_, fun now mutations reference ids s b' hnow hmutations hroom hrun => ?_,
    fun now mutations reference ids books hnow hmutations hroom hrunning hfault hunused hbooks =>
      ?_⟩
  · obtain ⟨s, hreplay, hbooks, -, -, hlast⟩ := hkept.exists_replay settings now
    refine ⟨_, hreplay, hbooks, fun hne => ?_⟩
    obtain ⟨r, hr⟩ : ∃ r, records.getLast? = some r := by
      rw [← Option.ne_none_iff_exists', ne_eq, List.getLast?_eq_none_iff]
      exact fun hnil => hne (by rw [hnil, List.map_nil])
    obtain ⟨hsequence, htime⟩ := hlast r hr
    obtain ⟨hsequence', htime'⟩ := hkept.latest r hr
    exact ⟨hsequence.trans hsequence'.symm, htime.trans htime'.symm⟩
  · exact hkept.query_of_posted hnow hmutations hroom (run_post_ok_iff.1 hrun)
  · obtain ⟨s, b', hposted⟩ := hkept.exists_posted reference hnow hmutations hroom
      hrunning hfault hunused hbooks
    exact ⟨s, b', run_post_ok_iff.2 hposted⟩

/-- A deposit, a restart, and the deposit is still there. -/
theorem restart_transparent_after_deposit :
    let m : LedgerMutation :=
      .setBalance (.of .exchange "paper") (.of .asset "USDT") (.ofFree .one)
    ∃ b j records, Lifetime [m] b ∧ b.journal = some j ∧ j.query {} = .ok records ∧
      records.map (·.mutation) = [m] := by
  intro m
  have hyear : Instant.epoch.HasPlainYear := ⟨by decide, by decide⟩
  have hm : ∀ m' ∈ [m], m'.Storable := by
    rw [List.forall_mem_singleton]
    exact ⟨rfl, rfl⟩
  have hempty : replay {} .epoch .empty =
      .ok { fresh {} .epoch with journal := some .empty } := rfl
  have hopened := Lifetime.opened hyear hempty
  have hunused : Journal.Unused .empty ((List.range [m].length).map (.stamped 0)) := {
    nodup := List.nodup_singleton _
    fresh := fun _ hrow => nomatch hrow }
  obtain ⟨s, b, hposted⟩ := (kept_of_opened hyear hempty).exists_posted "" hyear hm
    (by decide) rfl rfl hunused rfl
  have hdeposit : Lifetime [m] b :=
    hopened.posted hyear hm (by decide) (run_post_ok_iff.2 hposted)
  obtain ⟨j', -, hj', -, -, -, hreplay, -⟩ := hdeposit.restart_transparent
  obtain ⟨b', hb', -⟩ := hreplay {} .epoch
  have hrestarted : Lifetime [m] b' := hdeposit.restarted hj' hyear hb'
  obtain ⟨j'', records', hj'', hquery, hlog', -⟩ := hrestarted.restart_transparent
  exact ⟨b', j'', records', hrestarted, hj'', hquery, hlog'⟩

end LedgerBook
end Reconciliation
