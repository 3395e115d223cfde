/-
# The history of a ledger book

A book that is posted batches goes through one state after another and keeps the newest of them,
as many as its limit allows.  What it keeps is therefore the front of one list, that of all the
states it ever had, and everything about its history is read off that list.

* `LedgerBook.Becomes`: what a book becomes, and the batches that were accepted on the way;
* `LedgerBook.Grown`, `LedgerBook.Becomes.grown`: the states it went through, and which it keeps;
* `LedgerBook.Grown.version_lt_of_dropped`: what is dropped is older than what is kept;
* `LedgerBook.Reachable.ordered`: every history is bounded and without a gap.
-/
import Mathlib.Data.List.Chain
import Reconciliation.Proofs.Ledger.Soundness

namespace Reconciliation

/-- One state comes right after another: the next version, and not committed earlier. -/
structure LedgerState.Succeeds (newer older : LedgerState) : Prop where
  version : newer.version = older.version + 1
  committedAt : older.committedAt ≤ newer.committedAt

/-- One state comes at some time after another. -/
structure LedgerState.Follows (newer older : LedgerState) : Prop where
  version : older.version < newer.version
  committedAt : older.committedAt ≤ newer.committedAt

instance : Trans LedgerState.Follows LedgerState.Follows LedgerState.Follows where
  trans h h' := ⟨Nat.lt_trans h'.version h.version, Instant.le_trans h'.committedAt h.committedAt⟩

theorem LedgerState.Succeeds.follows {newer older : LedgerState} (h : newer.Succeeds older) :
    newer.Follows older where
  version := h.version ▸ Nat.lt_succ_self _
  committedAt := h.committedAt

/-- In a chain of versions, newest first, each comes after all behind it. -/
theorem LedgerState.follows_of_chain {l : List LedgerState} (h : l.IsChain Succeeds) :
    l.Pairwise Follows :=
  List.isChain_iff_pairwise.1 (h.imp fun _ _ => Succeeds.follows)

namespace LedgerBook

variable {b b' : LedgerBook} {now : Instant} {mutations : List LedgerMutation}
  {reference : String} {ids : Nat → Uuid} {s s' : LedgerState}

/-- How many states a book keeps. -/
def capacity (b : LedgerBook) : Nat := max b.settings.historyLimit 1

theorem capacity_pos (b : LedgerBook) : 0 < b.capacity :=
  Nat.lt_of_lt_of_le Nat.one_pos (Nat.le_max_right _ 1)

/-! ## 1. What a batch adds -/

/-- `b.Publishes mutations s b'`: the batch made the state `s` of the latest one, and put it in
front of the history. -/
structure Publishes (b : LedgerBook) (mutations : List LedgerMutation) (s : LedgerState)
    (b' : LedgerBook) : Prop where
  changes : mutations ≠ []
  settings : b'.settings = b.settings
  latest : b'.latest = s
  history : b'.history = (s :: b.history).take b.capacity
  pruned : b'.pruned = (b.pruned || decide (b.capacity < (s :: b.history).length))
  succeeds : s.Succeeds b.latest
  version : s.version < wordCount
  books : AccountBooks.applyAll b.latest.books mutations = .ok s.books
  sequence : s.sequence = b.lastSequence + mutations.length
  counter : b'.lastSequence = s.sequence

theorem history_publish (b : LedgerBook) (s : LedgerState) :
    (b.publish s).history = (s :: b.history).take b.capacity := by
  obtain ⟨n, hn⟩ := Nat.exists_eq_add_of_lt b.capacity_pos
  have hcapacity : b.capacity = n + 1 := by omega
  rw [hcapacity, List.take_succ_cons]
  show s :: b.history.take (b.capacity - 1) = _
  rw [hcapacity, Nat.add_sub_cancel]

theorem pruned_publish (b : LedgerBook) (s : LedgerState) :
    (b.publish s).pruned = (b.pruned || decide (b.capacity < (s :: b.history).length)) := by
  have hpos := b.capacity_pos
  show (b.pruned || decide ((b.history.take (b.capacity - 1)).length < b.history.length)) = _
  rw [List.length_take, List.length_cons]
  congr 2
  rw [eq_iff_iff]
  omega

/-- **An accepted batch with a change in it publishes a state.** -/
theorem Posted.publishes (h : Posted b now mutations reference ids s b') (hne : mutations ≠ []) :
    b.Publishes mutations s b' := by
  cases h with
  | nothing _ hnil => exact absurd hnil hne
  | published htaken hversion =>
    exact {
      changes := hne
      settings := rfl
      latest := rfl
      history := history_publish _ _
      pruned := pruned_publish _ _
      succeeds := ⟨rfl, Instant.le_max_right _ _⟩
      version := hversion
      books := htaken.books
      sequence := rfl
      counter := rfl }

/-- One without a change publishes none. -/
theorem Posted.eq_of_nil (h : Posted b now [] reference ids s b') : b' = b := by
  cases h with
  | nothing => rfl
  | published htaken => exact absurd rfl htaken.changes

/-! ## 2. What a book becomes -/

/-- A batch that was accepted, with the state that it made. -/
structure Commit where
  mutations : List LedgerMutation
  state : LedgerState

/-- `b.Becomes commits b'`: the book was posted batches at whatever times, some of them refused
and some without a change; it was stopped and started, and its storage failed and recovered.  Now
it is `b'`, and `commits` are the other batches, in their order. -/
inductive Becomes (b : LedgerBook) : List Commit → LedgerBook → Prop
  | start : Becomes b [] b
  | posted {commits : List Commit} {b₁ b₂ : LedgerBook} {now : Instant}
      {mutations : List LedgerMutation} {reference : String} {ids : Nat → Uuid} {s : LedgerState} :
      Becomes b commits b₁ → mutations ≠ [] →
      (post now mutations reference ids).run b₁ = .ok s b₂ →
      Becomes b (commits ++ [⟨mutations, s⟩]) b₂
  | idle {commits : List Commit} {b₁ b₂ : LedgerBook} {now : Instant} {reference : String}
      {ids : Nat → Uuid} {s : LedgerState} :
      Becomes b commits b₁ → (post now [] reference ids).run b₁ = .ok s b₂ → Becomes b commits b₂
  | refused {commits : List Commit} {b₁ b₂ : LedgerBook} {now : Instant}
      {mutations : List LedgerMutation} {reference : String} {ids : Nat → Uuid} {e : LedgerError} :
      Becomes b commits b₁ → (post now mutations reference ids).run b₁ = .error e b₂ →
      Becomes b commits b₂
  | switched {commits : List Commit} {b₁ : LedgerBook} (running : Bool) :
      Becomes b commits b₁ → Becomes b commits (b₁.setRunning running)
  | faulty {commits : List Commit} {b₁ : LedgerBook} {j : Journal}
      (appendFault latestFault : Option StorageFault) :
      Becomes b commits b₁ → b₁.journal = some j →
      Becomes b commits { b₁ with journal := some { j with appendFault, latestFault } }

/-- A book publishes a batch that passes all stages before that. -/
theorem Becomes.published {commits : List Commit} {b₁ : LedgerBook} {books : AccountBooks}
    {journal : Option Journal} (h : b.Becomes commits b₁)
    (htaken : Taken b₁ now mutations reference ids books journal)
    (hversion : b₁.latest.version + 1 < wordCount) :
    b.Becomes (commits ++ [⟨mutations, b₁.stateAfter now mutations books⟩])
      (b₁.bookAfter journal (b₁.stateAfter now mutations books)) :=
  h.posted htaken.changes (run_post_ok_iff.2 (.published htaken hversion))

/-- All states that a book has had, newest first: those that the batches made, and those that it
kept before. -/
def states (b : LedgerBook) (commits : List Commit) : List LedgerState :=
  (commits.map (·.state)).reverse ++ b.history

theorem states_concat (b : LedgerBook) (commits : List Commit) (c : Commit) :
    b.states (commits ++ [c]) = c.state :: b.states commits := by
  simp [states]

theorem length_states (b : LedgerBook) (commits : List Commit) :
    (b.states commits).length = commits.length + b.history.length := by
  simp [states]

theorem mem_states {commits : List Commit} :
    s ∈ b.states commits ↔ (∃ c ∈ commits, c.state = s) ∨ s ∈ b.history := by
  simp [states]

/-- `b.After batches s`: the state `s` is the latest one of `b` with the changes of these batches,
all of each. -/
structure After (b : LedgerBook) (batches : List Commit) (s : LedgerState) : Prop where
  version : s.version = b.latest.version + batches.length
  books : AccountBooks.applyAll b.latest.books (batches.flatMap (·.mutations)) = .ok s.books
  sequence : s.sequence = b.lastSequence + (batches.flatMap (·.mutations)).length

/-- `b.Grown commits b'`: what `b'` keeps of the states that it has had since it was `b`, and how
they were made.  The counter has counted their changes; only in a book at its last version it may
have counted others, for which there was no state. -/
structure Grown (b : LedgerBook) (commits : List Commit) (b' : LedgerBook) : Prop where
  changes : ∀ c ∈ commits, c.mutations ≠ []
  settings : b'.settings = b.settings
  history : b'.history = (b.states commits).take b.capacity
  pruned : b'.pruned = (b.pruned || decide (b.capacity < (b.states commits).length))
  chain : (b.states commits).IsChain LedgerState.Succeeds
  version : b'.latest.version = b.latest.version + commits.length
  books : AccountBooks.applyAll b.latest.books (commits.flatMap (·.mutations)) = .ok b'.latest.books
  counter : b'.latest.version + 1 < wordCount →
    b'.lastSequence = b.lastSequence + (commits.flatMap (·.mutations)).length
  after : ∀ earlier c, earlier ++ [c] <+: commits → b.After (earlier ++ [c]) c.state

/-- The histories of ledger books: no longer than they may be, and without a gap. -/
structure Ordered (b : LedgerBook) : Prop where
  bounded : b.history.length ≤ b.capacity
  chain : b.history.IsChain LedgerState.Succeeds

theorem Ordered.grown (h : b.Ordered) : b.Grown [] b where
  changes _ hc := absurd hc List.not_mem_nil
  settings := rfl
  history := (List.take_of_length_le h.bounded).symm
  pruned := by
    have hfits : ¬ b.capacity < (b.states []).length := Nat.not_lt.2 h.bounded
    rw [decide_eq_false hfits, Bool.or_false]
  chain := h.chain
  version := rfl
  books := rfl
  counter _ := rfl
  after _ _ hfront := absurd (List.prefix_nil.1 hfront) (by simp)

/-- The front of a list goes on as the front of the longer list. -/
theorem take_cons_take {α : Type} (a : α) (l : List α) (n : Nat) :
    (a :: l.take n).take n = (a :: l).take n := by
  cases n with
  | zero => rfl
  | succ n => simp [List.take_take]

/-- The latest state is the newest of all. -/
theorem Grown.head?_states {commits : List Commit} (h : b.Grown commits b') :
    (b.states commits).head? = some b'.latest := by
  have hhead : ((b.states commits).take b.capacity).head? = some b'.latest :=
    h.history ▸ rfl
  rwa [List.head?_take, if_neg (Nat.ne_of_gt b.capacity_pos)] at hhead

/-- **One more batch.** -/
theorem Grown.concat {commits : List Commit} {b₁ b₂ : LedgerBook} {c : Commit}
    (h : b.Grown commits b₁) (hpublishes : b₁.Publishes c.mutations c.state b₂) :
    b.Grown (commits ++ [c]) b₂ := by
  have hcapacity : b₁.capacity = b.capacity := by rw [capacity, h.settings, capacity]
  have hmutations : (commits ++ [c]).flatMap (·.mutations) =
      commits.flatMap (·.mutations) ++ c.mutations := by simp
  have hafter : b.After (commits ++ [c]) c.state := {
    version := by
      rw [hpublishes.succeeds.version, h.version, List.length_append, List.length_singleton,
        Nat.add_assoc]
    books := by
      rw [hmutations, AccountBooks.applyAll_append, h.books]
      exact hpublishes.books
    sequence := by
      have hversion : b₁.latest.version + 1 < wordCount :=
        hpublishes.succeeds.version ▸ hpublishes.version
      rw [hpublishes.sequence, h.counter hversion, hmutations, List.length_append,
        Nat.add_assoc] }
  refine {
    changes := List.forall_mem_append.2
      ⟨h.changes, List.forall_mem_singleton.2 hpublishes.changes⟩
    settings := hpublishes.settings.trans h.settings
    history := ?_
    pruned := ?_
    chain := ?_
    version := hpublishes.latest ▸ hafter.version
    books := hpublishes.latest ▸ hafter.books
    counter := fun _ => hpublishes.counter.trans hafter.sequence
    after := fun earlier c' hfront => ?_ }
  · rw [hpublishes.history, h.history, hcapacity, take_cons_take, states_concat]
  · -- what the older history had already lost, and what goes now
    rw [hpublishes.pruned, h.pruned, h.history, hcapacity, states_concat, List.length_cons,
      List.length_cons, List.length_take, Bool.or_assoc, ← Bool.decide_or]
    have := b.capacity_pos
    congr 2
    rw [eq_iff_iff]
    omega
  · rw [states_concat]
    refine h.chain.cons fun s' hs' => ?_
    rw [h.head?_states, Option.mem_some_iff] at hs'
    exact hs' ▸ hpublishes.succeeds
  · rcases List.prefix_concat_iff.1 hfront with heq | hfront
    · obtain ⟨rfl, rfl⟩ := List.append_singleton_inj.1 heq
      exact hafter
    · exact h.after earlier c' hfront

/-- **One batch less.**  The states stay, and so does the counter unless there are no versions. -/
theorem Grown.refused {commits : List Commit} {b₁ b₂ : LedgerBook} {e : LedgerError}
    (h : b.Grown commits b₁) (hrun : (post now mutations reference ids).run b₁ = .error e b₂) :
    b.Grown commits b₂ := by
  by_cases hversion : b₁.latest.version + 1 < wordCount
  · exact eq_of_error_of_version hrun hversion ▸ h
  · rw [eq_of_error hrun]
    exact { h with counter := fun hlt => absurd hlt hversion }

/-- **What a book becomes is known from the batches that it accepted.** -/
theorem Becomes.grown {commits : List Commit} (hb : b.Ordered) (h : b.Becomes commits b') :
    b.Grown commits b' := by
  induction h with
  | start => exact hb.grown
  | posted _ hne hrun ih => exact ih.concat ((run_post_ok_iff.1 hrun).publishes hne)
  | idle _ hrun ih => exact (run_post_ok_iff.1 hrun).eq_of_nil ▸ ih
  | refused _ hrun ih => exact ih.refused hrun
  | switched running _ ih => exact { ih with }
  | faulty appendFault latestFault _ _ ih => exact { ih with }

/-! ## 3. What is kept -/

theorem ordered_of_single (h : b.earlier = []) : b.Ordered where
  bounded := by
    rw [history, h]
    exact b.capacity_pos
  chain := by
    rw [history, h]
    exact .singleton _

theorem Grown.capacity_eq {commits : List Commit} (h : b.Grown commits b') :
    b'.capacity = b.capacity := by
  rw [capacity, h.settings, capacity]

theorem Grown.ordered {commits : List Commit} (h : b.Grown commits b') : b'.Ordered where
  bounded := by
    rw [h.history, h.capacity_eq]
    exact List.length_take_le _ _
  chain := h.history ▸ h.chain.take _

/-- What is not kept any more is older than all that is. -/
theorem Grown.version_lt_of_dropped {commits : List Commit} (h : b.Grown commits b')
    (hs : s ∈ b.states commits) (hdropped : s ∉ b'.history) (hs' : s' ∈ b'.history) :
    s.version < s'.version := by
  have hchain := LedgerState.follows_of_chain h.chain
  rw [h.history] at hdropped hs'
  rw [← List.take_append_drop b.capacity (b.states commits)] at hs hchain
  have hmem := (List.mem_append.1 hs).resolve_left hdropped
  exact ((List.pairwise_append.1 hchain).2.2 s' hs' s hmem).version

/-- Every reachable book is what a book with one state has become. -/
theorem Reachable.exists_becomes (h : Reachable b) :
    ∃ (b₀ : LedgerBook) (commits : List Commit), b₀.earlier = [] ∧ b₀.Becomes commits b := by
  induction h with
  | fresh settings now => exact ⟨_, [], rfl, .start⟩
  | replayed hreplay =>
    simp only [replay, bind_eq_ok_iff, pure_eq_ok_iff] at hreplay
    obtain ⟨-, -, state, -, last, -, rfl⟩ := hreplay
    exact ⟨_, [], rfl, .start⟩
  | @posted _ _ _ mutations _ _ _ _ hrun ih =>
    obtain ⟨b₀, commits, hsingle, hbecomes⟩ := ih
    by_cases hne : mutations = []
    · subst hne
      exact ⟨b₀, commits, hsingle, hbecomes.idle hrun⟩
    · exact ⟨b₀, _, hsingle, hbecomes.posted hne hrun⟩
  | refused _ hrun ih =>
    obtain ⟨b₀, commits, hsingle, hbecomes⟩ := ih
    exact ⟨b₀, commits, hsingle, hbecomes.refused hrun⟩
  | switched running _ ih =>
    obtain ⟨b₀, commits, hsingle, hbecomes⟩ := ih
    exact ⟨b₀, commits, hsingle, hbecomes.switched running⟩
  | faulty appendFault latestFault _ hj ih =>
    obtain ⟨b₀, commits, hsingle, hbecomes⟩ := ih
    exact ⟨b₀, commits, hsingle, hbecomes.faulty appendFault latestFault hj⟩

/-- **The history of every reachable book is bounded and without a gap.** -/
theorem Reachable.ordered (h : Reachable b) : b.Ordered := by
  obtain ⟨b₀, commits, hsingle, hbecomes⟩ := h.exists_becomes
  exact (hbecomes.grown (ordered_of_single hsingle)).ordered

/-! ## 4. A deposit -/

def deposit : LedgerMutation :=
  .setBalance (.of .exchange "paper") (.of .asset "USDT") (.ofFree .one)

/-- A deposit drops the first state of a book that keeps one. -/
theorem exists_deposited : ∃ (s : LedgerState) (b' : LedgerBook),
    (fresh { historyLimit := 0 } .epoch).Becomes [⟨[deposit], s⟩] b' ∧ b'.history = [s] ∧
      s.version = 1 ∧ Instant.epoch < s.committedAt ∧ b'.viewAt .epoch = .ok s := by
  let b : LedgerBook := fresh { historyLimit := 0 } .epoch
  let books : AccountBooks :=
    AccountBooks.onBook .empty (.of .exchange "paper")
      (·.putBalance (.of .asset "USDT") (.ofFree .one))
  let second : Instant := ⟨1, 0, by decide, by decide⟩
  let s : LedgerState := b.stateAfter second [deposit] books
  have htaken : Taken b second [deposit] "" (.stamped 0) books none :=
    taken_fresh (List.cons_ne_nil _ _) rfl (by decide)
  have hbecomes : b.Becomes [⟨[deposit], s⟩] (b.bookAfter none s) :=
    Becomes.start.published htaken (by decide)
  exact ⟨s, b.bookAfter none s, hbecomes, rfl, rfl, by decide, rfl⟩

end LedgerBook

end Reconciliation
