/-
# Posting a batch as a whole or not at all

A batch passes five stages: the ledger runs, every change is taken by the books that the changes
before it made, the counter has a number for each, the journal takes the records, and the new state
is published.  The changes are tried on a copy and a refused adjustment does leave something in it;
what matters is that the copy is all it leaves something in, and that nothing is published or
counted before the journal has taken the records.  After that only the version can still be out of
words, and that a ledger that counts its changes in words never lives to see.

* `recordsOf_eq`: the records of a batch, if there are numbers for them;
* `run_post_ok_iff`, `run_post_error_iff`: all that posting can do, the refusals included;
* `refused_batch_leaves_no_trace`: a refused batch changes nothing, now or later;
* `postAll_acceptedOf`: a run of batches is the run of those that are accepted.
-/
import Reconciliation.Ledger.Book
import Reconciliation.Proofs.Ledger.Change

namespace Reconciliation

namespace LedgerBook

variable {b b' : LedgerBook} {now : Instant} {mutations : List LedgerMutation}
  {reference : String} {ids : Nat → Uuid} {s : LedgerState} {e : LedgerError}

/-! ## 1. The records of a batch -/

/-- The records that a batch is written as, numbered from `start + 1`. -/
def numberedRecords (start : Nat) (time : Instant) (reference : String) (ids : Nat → Uuid)
    (mutations : List LedgerMutation) : List JournalRecord :=
  mutations.zipIdx.map fun (m, place) => ⟨ids place, start + 1 + place, time, reference, m⟩

section Records

variable (start : Nat) (time : Instant) (reference : String) (ids : Nat → Uuid)

theorem map_mutation_numberedRecords (mutations : List LedgerMutation) :
    (numberedRecords start time reference ids mutations).map (·.mutation) = mutations := by
  rw [numberedRecords, List.map_map]
  exact List.zipIdx_map_fst 0 mutations

theorem length_numberedRecords (mutations : List LedgerMutation) :
    (numberedRecords start time reference ids mutations).length = mutations.length := by
  rw [numberedRecords, List.length_map, List.length_zipIdx]

theorem map_sequence_numberedRecords (mutations : List LedgerMutation) :
    (numberedRecords start time reference ids mutations).map (·.sequence) =
      List.range' (start + 1) mutations.length := by
  have hplaces := congrArg (List.map (start + 1 + ·)) (List.zipIdx_map_snd 0 mutations)
  rw [List.map_map, List.map_add_range'] at hplaces
  rw [numberedRecords, List.map_map]
  exact hplaces

theorem map_id_numberedRecords (mutations : List LedgerMutation) :
    (numberedRecords start time reference ids mutations).map (·.id) =
      (List.range mutations.length).map ids := by
  have hplaces := congrArg (List.map ids) (List.zipIdx_map_snd 0 mutations)
  rw [List.map_map, ← List.range_eq_range'] at hplaces
  rw [numberedRecords, List.map_map]
  exact hplaces

theorem timestamp_of_mem_numberedRecords {mutations : List LedgerMutation} {r : JournalRecord}
    (h : r ∈ numberedRecords start time reference ids mutations) : r.timestamp = time := by
  obtain ⟨x, -, rfl⟩ := List.mem_map.1 h
  rfl

end Records

/-- **A batch gets numbers for all of its changes, or the counter overflows.** -/
theorem recordsOf_eq (start : Nat) (time : Instant) (reference : String) (ids : Nat → Uuid)
    (hne : mutations ≠ []) :
    recordsOf start time reference ids mutations =
      if start + mutations.length < wordCount then
        .ok (numberedRecords start time reference ids mutations)
      else .error .counting := by
  have hpos := List.length_pos_iff.2 hne
  unfold recordsOf
  by_cases hfirst : start + 1 < wordCount
  · rw [addWords_of_lt hfirst]
    show mutations.zipIdx.mapM _ = _
    split
    · rename_i hroom
      refine mapM_eq_ok fun x hx => ?_
      have hplace := List.snd_lt_of_mem_zipIdx hx
      simp only [addWords_of_lt (show start + 1 + x.2 < wordCount by omega)]
      rfl
    · rename_i hroom
      -- the last change has no number
      have hlast : (mutations.getLast hne, mutations.length - 1) ∈ mutations.zipIdx := by
        rw [List.mk_mem_zipIdx_iff_getElem?, ← List.getLast?_eq_getElem?,
          List.getLast?_eq_some_getLast hne]
      refine mapM_eq_error hlast ?_ fun x _ => ?_
      · simp only [addWords_of_le (show wordCount ≤ start + 1 + (mutations.length - 1) by omega)]
        rfl
      · rcases Nat.lt_or_ge (start + 1 + x.2) wordCount with hlt | hle
        · refine .inr ⟨⟨ids x.2, start + 1 + x.2, time, reference, x.1⟩, ?_⟩
          simp only [addWords_of_lt hlt]
          rfl
        · refine .inl ?_
          simp only [addWords_of_le hle]
          rfl
  · rw [addWords_of_le (Nat.le_of_not_lt hfirst), if_neg (by omega)]
    rfl

/-! ## 2. What posting can do -/

/-- The records that a batch is written as. -/
def recordsFor (b : LedgerBook) (now : Instant) (mutations : List LedgerMutation)
    (reference : String) (ids : Nat → Uuid) : List JournalRecord :=
  numberedRecords b.lastSequence (now.max b.latest.committedAt) reference ids mutations

/-- The state that a batch publishes with the books it has made. -/
def stateAfter (b : LedgerBook) (now : Instant) (mutations : List LedgerMutation)
    (books : AccountBooks) : LedgerState :=
  ⟨b.latest.version + 1, b.lastSequence + mutations.length, now.max b.latest.committedAt, books⟩

/-- The book that publishes a state, with the journal as it was written. -/
def bookAfter (b : LedgerBook) (journal : Option Journal) (s : LedgerState) : LedgerBook :=
  { b with journal, lastSequence := s.sequence }.publish s

/-- `Taken b now mutations reference ids books journal`: the batch has changes and passes all stages
before the last one; `books` and `journal` are what it has made. -/
structure Taken (b : LedgerBook) (now : Instant) (mutations : List LedgerMutation)
    (reference : String) (ids : Nat → Uuid) (books : AccountBooks) (journal : Option Journal) :
    Prop where
  running : b.running = true
  changes : mutations ≠ []
  books : AccountBooks.applyAll b.latest.books mutations = .ok books
  numbers : b.lastSequence + mutations.length < wordCount
  journal : b.journal.mapM (·.append (b.recordsFor now mutations reference ids)) = .ok journal

/-- `Posted b now mutations reference ids s b'`: the batch is accepted, answered with `s`, and
leaves `b'`. -/
inductive Posted (b : LedgerBook) (now : Instant) (mutations : List LedgerMutation)
    (reference : String) (ids : Nat → Uuid) : LedgerState → LedgerBook → Prop
  | nothing : b.running = true → mutations = [] →
      Posted b now mutations reference ids b.latest b
  | published {books : AccountBooks} {journal : Option Journal} :
      Taken b now mutations reference ids books journal → b.latest.version + 1 < wordCount →
      Posted b now mutations reference ids (b.stateAfter now mutations books)
        (b.bookAfter journal (b.stateAfter now mutations books))

/-- `Refusal b now mutations reference ids e`: a stage refuses the batch with `e`. -/
inductive Refusal (b : LedgerBook) (now : Instant) (mutations : List LedgerMutation)
    (reference : String) (ids : Nat → Uuid) : LedgerError → Prop
  | stopped : b.running = false → Refusal b now mutations reference ids .notRunning
  /-- A change, at any place, contradicts the books that the changes before it made, or gives an
  amount that no decimal can hold. -/
  | change {first rest : List LedgerMutation} {m : LedgerMutation} {books : AccountBooks}
      {e : LedgerError} :
      b.running = true → mutations = first ++ m :: rest →
      AccountBooks.applyAll b.latest.books first = .ok books →
      AccountBooks.apply books m = .error e → Refusal b now mutations reference ids e
  /-- There are not enough numbers left for the changes. -/
  | counter {books : AccountBooks} :
      b.running = true → mutations ≠ [] →
      AccountBooks.applyAll b.latest.books mutations = .ok books →
      wordCount ≤ b.lastSequence + mutations.length →
      Refusal b now mutations reference ids (.overflow .counting)
  | journal {books : AccountBooks} {j : Journal} {e : LedgerError} :
      b.running = true → mutations ≠ [] →
      AccountBooks.applyAll b.latest.books mutations = .ok books →
      b.lastSequence + mutations.length < wordCount → b.journal = some j →
      j.append (b.recordsFor now mutations reference ids) = .error e →
      Refusal b now mutations reference ids e

/-- `Exhausted b now mutations reference ids e b'`: the batch is written, but the latest version is
the last one that there is.  The latest state stays, for this and for every later batch. -/
inductive Exhausted (b : LedgerBook) (now : Instant) (mutations : List LedgerMutation)
    (reference : String) (ids : Nat → Uuid) : LedgerError → LedgerBook → Prop
  | written {books : AccountBooks} {journal : Option Journal} :
      Taken b now mutations reference ids books journal → wordCount ≤ b.latest.version + 1 →
      Exhausted b now mutations reference ids (.overflow .counting)
        { b with journal, lastSequence := b.lastSequence + mutations.length }

/-- Writing to the journal is all or nothing, and without a journal there is nothing to fail. -/
theorem run_writeRecords (b : LedgerBook) (records : List JournalRecord) :
    (writeRecords records).run b =
      match b.journal.mapM (·.append records) with
      | .error e => .error e b
      | .ok journal => .ok () { b with journal } := by
  obtain ⟨settings, latest, earlier, lastSequence, journal, running, pruned⟩ := b
  cases journal with
  | none => rfl
  | some j =>
    simp only [writeRecords, EStateM.run_bind, EStateM.run_get, Option.mapM_some]
    cases j.append records <;> rfl

/-- Posting, stage by stage: nothing touches the book before the journal has taken the records. -/
theorem run_post (b : LedgerBook) (now : Instant) (mutations : List LedgerMutation)
    (reference : String) (ids : Nat → Uuid) :
    (post now mutations reference ids).run b =
      if b.running = false then .error .notRunning b
      else if mutations = [] then .ok b.latest b
      else
        match AccountBooks.applyAll b.latest.books mutations with
        | .error e => .error e b
        | .ok books =>
          if b.lastSequence + mutations.length < wordCount then
            match b.journal.mapM (·.append (b.recordsFor now mutations reference ids)) with
            | .error e => .error e b
            | .ok journal =>
              if b.latest.version + 1 < wordCount then
                .ok (b.stateAfter now mutations books)
                  (b.bookAfter journal (b.stateAfter now mutations books))
              else
                .error (.overflow .counting)
                  { b with journal, lastSequence := b.lastSequence + mutations.length }
          else .error (.overflow .counting) b := by
  unfold post
  rw [EStateM.run_bind, EStateM.run_get]
  by_cases hr : b.running = false
  · simp only [hr, Bool.not_false, if_true]
    rfl
  by_cases hm : mutations = []
  · simp [hr, hm]
  have hr' : b.running = true := by simpa using hr
  simp only [hr', hm, Bool.not_true, Bool.false_eq_true, Bool.true_eq_false, List.isEmpty_iff,
    if_false]
  rw [EStateM.run_bind]
  cases AccountBooks.applyAll b.latest.books mutations with
  | error e => rfl
  | ok books =>
    rw [LedgerAction.run_check]
    simp only [EStateM.run_bind, recordsOf_eq _ _ _ _ hm, LedgerAction.run_amount]
    by_cases hroom : b.lastSequence + mutations.length < wordCount
    · simp only [if_pos hroom, addWords_of_lt hroom, run_writeRecords]
      rw [← recordsFor]
      cases b.journal.mapM (·.append (b.recordsFor now mutations reference ids)) with
      | error e => rfl
      | ok journal =>
        by_cases hversion : b.latest.version + 1 < wordCount
        · simp only [addWords_of_lt hversion, if_pos hversion]
          rfl
        · simp only [addWords_of_le (Nat.le_of_not_lt hversion), if_neg hversion, hr']
          rfl
    · simp only [if_neg hroom]

theorem run_post_ok_iff :
    (post now mutations reference ids).run b = .ok s b' ↔
      Posted b now mutations reference ids s b' := by
  rw [run_post]
  constructor
  · intro h
    split at h
    · cases h
    rename_i hr
    split at h
    · rename_i hm
      cases h
      exact .nothing (by simpa using hr) hm
    rename_i hm
    split at h
    · cases h
    rename_i books hbooks
    split at h
    · rename_i hroom
      split at h
      · cases h
      rename_i journal hj
      split at h
      · rename_i hversion
        cases h
        exact .published ⟨by simpa using hr, hm, hbooks, hroom, hj⟩ hversion
      · cases h
    · cases h
  · rintro (⟨hr, hm⟩ | ⟨htaken, hversion⟩)
    · simp [hr, hm]
    · simp only [htaken.running, htaken.changes, htaken.books, htaken.numbers, htaken.journal,
        hversion, Bool.true_eq_false, if_false, if_true]

/-- **A refused batch leaves the very book it found**, unless it is refused for want of a version
after it was written. -/
theorem run_post_error_iff :
    (post now mutations reference ids).run b = .error e b' ↔
      (Refusal b now mutations reference ids e ∧ b' = b) ∨
        Exhausted b now mutations reference ids e b' := by
  rw [run_post]
  constructor
  · intro h
    split at h
    · rename_i hr
      cases h
      exact .inl ⟨.stopped hr, rfl⟩
    rename_i hr
    have hrunning : b.running = true := by simpa using hr
    split at h
    · cases h
    rename_i hm
    split at h
    · rename_i e' hbooks
      cases h
      obtain ⟨first, m, rest, books, hsplit, hfirst, happly⟩ :=
        AccountBooks.applyAll_eq_error_iff.1 hbooks
      exact .inl ⟨.change hrunning hsplit hfirst happly, rfl⟩
    rename_i books hbooks
    split at h
    · rename_i hroom
      split at h
      · rename_i e' hj
        cases h
        cases hjournal : b.journal with
        | none => rw [hjournal] at hj; cases hj
        | some j =>
          refine .inl ⟨.journal hrunning hm hbooks hroom hjournal ?_, rfl⟩
          rw [hjournal, Option.mapM_some] at hj
          cases happend : j.append (b.recordsFor now mutations reference ids) with
          | error e'' => rw [happend] at hj; cases hj; rfl
          | ok j' => rw [happend] at hj; cases hj
      · rename_i journal hj
        split at h
        · cases h
        · rename_i hversion
          cases h
          exact .inr (.written ⟨hrunning, hm, hbooks, hroom, hj⟩ (Nat.le_of_not_lt hversion))
    · rename_i hroom
      cases h
      exact .inl ⟨.counter hrunning hm hbooks (Nat.le_of_not_lt hroom), rfl⟩
  · rintro (⟨hrefusal, rfl⟩ | ⟨htaken, hversion⟩)
    · cases hrefusal with
      | stopped hr => simp [hr]
      | change hr hsplit hfirst happly =>
        have hbooks := AccountBooks.applyAll_eq_error_iff.2 ⟨_, _, _, _, hsplit, hfirst, happly⟩
        simp [hr, hsplit ▸ hbooks, hsplit]
      | counter hr hm hbooks hroom =>
        simp only [hr, hm, hbooks, Nat.not_lt.2 hroom, Bool.true_eq_false, if_false]
      | journal hr hm hbooks hroom hjournal happend =>
        simp only [hr, hm, hbooks, hroom, hjournal, Option.mapM_some, happend, Bool.true_eq_false,
          if_false, if_true]
        rfl
    · simp only [htaken.running, htaken.changes, htaken.books, htaken.numbers, htaken.journal,
        Nat.not_lt.2 hversion, Bool.true_eq_false, if_false, if_true]

/-- Whatever becomes of a batch that is not accepted, the states and the settings stay. -/
theorem eq_of_error (h : (post now mutations reference ids).run b = .error e b') :
    b' = { b with journal := b'.journal, lastSequence := b'.lastSequence } := by
  rcases run_post_error_iff.1 h with ⟨-, rfl⟩ | ⟨-, -⟩
  · rfl
  · rfl

/-- As long as there are versions, everything stays. -/
theorem eq_of_error_of_version (h : (post now mutations reference ids).run b = .error e b')
    (hversion : b.latest.version + 1 < wordCount) : b' = b := by
  rcases run_post_error_iff.1 h with ⟨-, rfl⟩ | ⟨-, hexhausted⟩
  · rfl
  · exact absurd hversion (Nat.not_lt.2 hexhausted)

/-! ## 3. Runs of batches -/

/-- A batch with what it is posted for and when, and the ids that are drawn for its records. -/
structure Batch where
  now : Instant
  mutations : List LedgerMutation
  reference : String
  ids : Nat → Uuid

/-- A batch is posted. -/
def Batch.post (x : Batch) : LedgerAction LedgerBook LedgerState :=
  LedgerBook.post x.now x.mutations x.reference x.ids

/-- The answers to a run of batches, posted one after another, and the book at its end. -/
def postAll : List Batch → LedgerBook → List (Except LedgerError LedgerState) × LedgerBook
  | [], b => ([], b)
  | x :: rest, b =>
    match x.post.run b with
    | .ok s b' => (.ok s :: (postAll rest b').1, (postAll rest b').2)
    | .error e b' => (.error e :: (postAll rest b').1, (postAll rest b').2)

/-- The batches of a run that are accepted, each by the book that the batches before it left. -/
def acceptedOf : List Batch → LedgerBook → List Batch
  | [], _ => []
  | x :: rest, b =>
    match x.post.run b with
    | .ok _ b' => x :: acceptedOf rest b'
    | .error _ b' => acceptedOf rest b'

/-- A batch makes one version at most. -/
theorem Posted.version_le (h : Posted b now mutations reference ids s b') :
    b'.latest.version ≤ b.latest.version + 1 := by
  cases h with
  | nothing => exact Nat.le_succ _
  | published => exact Nat.le_refl _

/-- **Without its refused batches a run gives the other batches the same answers, and ends with
the same book**, as long as there are versions for them. -/
theorem postAll_acceptedOf (batches : List Batch) (b : LedgerBook)
    (hversions : b.latest.version + batches.length < wordCount) :
    postAll (acceptedOf batches b) b =
      ((postAll batches b).1.filter Except.isOk, (postAll batches b).2) := by
  induction batches generalizing b with
  | nil => rfl
  | cons x rest ih =>
    rw [List.length_cons] at hversions
    cases h : x.post.run b with
    | ok s b' =>
      have hversion := (run_post_ok_iff.1 h).version_le
      rw [acceptedOf, postAll, h, List.filter_cons_of_pos rfl]
      simp only [postAll, h, ih b' (by omega)]
    | error e b' =>
      obtain rfl : b' = b := eq_of_error_of_version h (by omega)
      rw [acceptedOf, postAll, h, List.filter_cons_of_neg (by simp [Except.isOk, Except.toBool])]
      exact ih b' (by omega)

/-! ## 4. All or nothing -/

theorem commit_eq_ok_iff :
    b.commit now mutations reference ids = .ok b' ↔
      ∃ s, Posted b now mutations reference ids s b' := by
  simp only [commit, LedgerAction.result_eq_ok_iff, run_post_ok_iff]

/-- **A refused batch leaves no trace.**  Whatever the book and the batch: when it is not accepted,
the history, the latest state, every view of the past and the capital are what they were.  If a
stage refused it, so are the counter and the journal, and all batches posted later get the answers
that they would have got without it.  The one other case is that of a ledger at its last version,
which writes the batch and has no state for it. -/
theorem refused_batch_leaves_no_trace
    (h : (post now mutations reference ids).run b = .error e b') :
    (b'.history = b.history ∧ b'.latest = b.latest ∧
      (∀ time, b'.viewAt time = b.viewAt time) ∧ b'.availableCapital = b.availableCapital) ∧
    (Refusal b now mutations reference ids e ∧ b'.lastSequence = b.lastSequence ∧
        b'.journal = b.journal ∧ (∀ later, postAll later b' = postAll later b) ∨
      Exhausted b now mutations reference ids e b') := by
  have heq := eq_of_error h
  refine ⟨⟨by rw [heq]; rfl, by rw [heq], fun time => by rw [heq]; rfl, by rw [heq]; rfl⟩, ?_⟩
  rcases run_post_error_iff.1 h with ⟨hrefusal, rfl⟩ | hexhausted
  · exact .inl ⟨hrefusal, rfl, rfl, fun _ => rfl⟩
  · exact .inr hexhausted

/-- A book with a journal, and a batch whose first change alone would be accepted. -/
theorem refused_batch_leaves_no_trace_at_second_change :
    let b : LedgerBook := { fresh default default with journal := some .empty }
    let batch : List LedgerMutation :=
      [.adjustBalance (.of .exchange "paper") (.of .asset "USDT") .one .zero,
        .setPosition ⟨.of .exchange "paper", .of .symbol "BTCUSDT", none, -.one, none, none,
          default⟩]
    ∃ e b', (post default batch "" (.stamped 0)).run b = .error e b' ∧
      ∀ later, postAll later b' = postAll later b := by
  intro b batch
  have hfirst : AccountBooks.applyAll b.latest.books [batch[0]] =
      .ok (AccountBooks.onBook .empty (.of .exchange "paper")
        (·.putBalance (.of .asset "USDT") (.ofFree .one))) := rfl
  have hrefusal : Refusal b default batch "" (.stamped 0) _ := .change rfl rfl hfirst rfl
  have hrun := run_post_error_iff.2 (.inl ⟨hrefusal, rfl⟩)
  refine ⟨_, b, hrun, ?_⟩
  rcases (refused_batch_leaves_no_trace hrun).2 with ⟨-, -, -, hlater⟩ | hexhausted
  · exact hlater
  · -- the counter has not moved
    cases hexhausted

end LedgerBook

end Reconciliation
