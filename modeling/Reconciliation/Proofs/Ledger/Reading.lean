/-
# Reading a ledger as of an instant

The newest state at or before an instant is found by a search from the latest state back.  That is
right because the history is in order, whatever the clock did; and where the history does not reach
back far enough, the oldest state stands in for those that were dropped.

* `LedgerBook.NewestAt`, `LedgerBook.StartsAfter`: the two cases of a read;
* `LedgerBook.Ordered.viewAt_eq_ok_iff`: what is read from an ordered history;
* `LedgerBook.Becomes.keeps_newest_versions`: history and reads of a book since it was opened.
-/
import Mathlib.Data.List.Nodup
import Reconciliation.Compare.Snapshot
import Reconciliation.Proofs.Ledger.History
import Reconciliation.Proofs.Ledger.Journal

namespace Reconciliation
namespace LedgerBook

variable {b b' : LedgerBook} {t : Instant} {s s' : LedgerState} {commits : List Commit}

/-! ## 1. One read -/

/-- `b.NewestAt t s`: of the states that the book keeps, `s` is the newest of those committed at
`t` or before. -/
structure NewestAt (b : LedgerBook) (t : Instant) (s : LedgerState) : Prop where
  kept : s ∈ b.history
  committed : s.committedAt ≤ t
  newest : ∀ s' ∈ b.history, s'.committedAt ≤ t → s'.version ≤ s.version

/-- All that the book keeps was committed after `t`. -/
def StartsAfter (b : LedgerBook) (t : Instant) : Prop := ∀ s ∈ b.history, t < s.committedAt

theorem getLast?_history (b : LedgerBook) : b.history.getLast? = some b.oldest := by
  rw [history, List.getLast?_cons, oldest, List.getLastD_eq_getLast?]

theorem oldest_mem_history (b : LedgerBook) : b.oldest ∈ b.history :=
  List.mem_of_getLast? b.getLast?_history

/-- The last of a chain, newest first, is the oldest. -/
theorem version_le_of_getLast? {l : List LedgerState} (h : l.Pairwise LedgerState.Follows)
    (hlast : l.getLast? = some s) (hs' : s' ∈ l) : s.version ≤ s'.version := by
  obtain ⟨l, rfl⟩ := List.getLast?_eq_some_iff.1 hlast
  rcases List.mem_append.1 hs' with hmem | hmem
  · have hfollows := (List.pairwise_append.1 h).2.2 s' hmem s (List.mem_singleton.2 rfl)
    exact Nat.le_of_lt hfollows.version
  · rw [List.mem_singleton.1 hmem]

namespace Ordered

/-- If anything kept is old enough, the newest of it is read. -/
theorem exists_newestAt (h : b.Ordered) (hs : s ∈ b.history) (ht : s.committedAt ≤ t) :
    ∃ s', b.NewestAt t s' ∧ b.viewAt t = .ok s' := by
  cases hfind : b.history.find? (·.committedAt ≤ t) with
  | none => exact absurd (by simpa using ht) (List.find?_eq_none.1 hfind s hs)
  | some s' =>
    refine ⟨s', ?_, by rw [viewAt, hfind]⟩
    obtain ⟨hcommitted, newer, older, hhistory, hnewer⟩ := List.find?_eq_some_iff_append.1 hfind
    have hchain := LedgerState.follows_of_chain h.chain
    rw [hhistory] at hchain
    refine ⟨List.mem_of_find?_eq_some hfind, by simpa using hcommitted, fun s'' hs'' ht'' => ?_⟩
    rw [hhistory, List.mem_append, List.mem_cons] at hs''
    rcases hs'' with hmem | rfl | hmem
    · -- the search has passed it by
      simpa [ht''] using hnewer s'' hmem
    · exact Nat.le_refl _
    · have hfollows := (List.pairwise_cons.1 (List.pairwise_append.1 hchain).2.1).1 s'' hmem
      exact Nat.le_of_lt hfollows.version

/-- No two states that are kept have one version. -/
theorem eq_of_version (h : b.Ordered) (hs : s ∈ b.history) (hs' : s' ∈ b.history)
    (hversion : s.version = s'.version) : s = s' := by
  have hnodup : (b.history.map (·.version)).Nodup :=
    List.pairwise_map.2 <| (LedgerState.follows_of_chain h.chain).imp fun hfollows =>
      Nat.ne_of_gt hfollows.version
  exact List.inj_on_of_nodup_map hnodup hs hs' hversion

theorem oldest_version_le (h : b.Ordered) (hs : s ∈ b.history) : b.oldest.version ≤ s.version :=
  version_le_of_getLast? (LedgerState.follows_of_chain h.chain) b.getLast?_history hs

end Ordered

/-- If nothing kept is old enough, the oldest stands in, provided that something was dropped. -/
theorem viewAt_of_startsAfter (h : b.StartsAfter t) :
    b.viewAt t =
      if b.pruned then .ok b.oldest else .error (.versionUnavailable t.toOffsetText) := by
  have hfind : b.history.find? (·.committedAt ≤ t) = none :=
    List.find?_eq_none.2 fun s hs => by simpa [Instant.le_iff_not_lt] using h s hs
  rw [viewAt, hfind]

/-- What is kept is old enough in part, or all of it is too new. -/
theorem startsAfter_or (b : LedgerBook) (t : Instant) :
    b.StartsAfter t ∨ ∃ s ∈ b.history, s.committedAt ≤ t := by
  by_cases h : ∃ s ∈ b.history, s.committedAt ≤ t
  · exact .inr h
  · refine .inl fun s hs => ?_
    by_contra hlt
    exact h ⟨s, hs, Instant.le_iff_not_lt.2 hlt⟩

/-- **What is read from an ordered history**: the newest state of the time, or the oldest that
there still is. -/
theorem Ordered.viewAt_eq_ok_iff (h : b.Ordered) :
    b.viewAt t = .ok s ↔
      b.NewestAt t s ∨ (b.StartsAfter t ∧ b.pruned = true ∧ s = b.oldest) := by
  rcases b.startsAfter_or t with hafter | ⟨s₀, hs₀, ht₀⟩
  · have hnot : ¬ b.NewestAt t s := fun hnewest =>
      Instant.le_iff_not_lt.1 hnewest.committed (hafter s hnewest.kept)
    rw [viewAt_of_startsAfter hafter, or_iff_right hnot]
    cases b.pruned <;> simp [hafter, eq_comm]
  · have hnot : ¬ b.StartsAfter t := fun hafter => Instant.le_iff_not_lt.1 ht₀ (hafter s₀ hs₀)
    obtain ⟨s', hnewest, hview⟩ := h.exists_newestAt hs₀ ht₀
    rw [hview, or_iff_left fun hright => hnot hright.1]
    constructor
    · rintro ⟨⟩
      exact hnewest
    · intro hs
      rw [h.eq_of_version hs.kept hnewest.kept (Nat.le_antisymm
        (hnewest.newest s hs.kept hs.committed) (hs.newest s' hnewest.kept hnewest.committed))]

/-- What is read is kept. -/
theorem Ordered.mem_of_viewAt (h : b.Ordered) (hview : b.viewAt t = .ok s) : s ∈ b.history := by
  rcases h.viewAt_eq_ok_iff.1 hview with hnewest | ⟨-, -, rfl⟩
  · exact hnewest.kept
  · exact b.oldest_mem_history

/-- A later instant is answered too, and with no older state. -/
theorem Ordered.exists_viewAt_of_le (h : b.Ordered) {t' : Instant} (ht : t ≤ t')
    (hview : b.viewAt t = .ok s) : ∃ s', b.viewAt t' = .ok s' ∧ s.version ≤ s'.version := by
  rcases h.viewAt_eq_ok_iff.1 hview with hnewest | ⟨-, hpruned, rfl⟩
  · have ht' := Instant.le_trans hnewest.committed ht
    obtain ⟨s', hs', hview'⟩ := h.exists_newestAt hnewest.kept ht'
    exact ⟨s', hview', hs'.newest s hnewest.kept ht'⟩
  · rcases b.startsAfter_or t' with hafter | ⟨s₀, hs₀, ht₀⟩
    · refine ⟨b.oldest, ?_, Nat.le_refl _⟩
      rw [viewAt_of_startsAfter hafter, if_pos hpruned]
    · obtain ⟨s', hs', hview'⟩ := h.exists_newestAt hs₀ ht₀
      exact ⟨s', hview', h.oldest_version_le hs'.kept⟩

/-- **The snapshot of a read is newer than what was asked for exactly if the read fell back on the
oldest state.** -/
theorem Ordered.isLaterThanRequested_iff (h : b.Ordered) (hview : b.viewAt t = .ok s) :
    (LedgerSnapshot.ofState s t).isLaterThanRequested = true ↔ b.StartsAfter t := by
  have hlater : (LedgerSnapshot.ofState s t).isLaterThanRequested = true ↔ t < s.committedAt :=
    decide_eq_true_iff
  rw [hlater]
  constructor
  · intro hlt
    rcases h.viewAt_eq_ok_iff.1 hview with hnewest | ⟨hafter, -, -⟩
    · exact absurd hlt (Instant.le_iff_not_lt.1 hnewest.committed)
    · exact hafter
  · exact fun hafter => hafter s (h.mem_of_viewAt hview)

/-! ## 2. A book since it was opened -/

/-- A book as it is opened: empty, or from a journal that keeps its rows under their numbers. -/
inductive Opened : LedgerBook → Prop
  | fresh (settings : LedgerSettings) (now : Instant) : Opened (fresh settings now)
  | replayed {settings : LedgerSettings} {now : Instant} {journal : Journal} {b : LedgerBook} :
      journal.Filed → replay settings now journal = .ok b → Opened b

/-- It has one state, has lost none, and counts on from that state. -/
structure Opening (b : LedgerBook) : Prop where
  earlier : b.earlier = []
  pruned : b.pruned = false
  counter : b.lastSequence = b.latest.sequence

theorem Opened.opening (h : Opened b) : Opening b := by
  cases h with
  | fresh settings now => exact ⟨rfl, rfl, rfl⟩
  | @replayed settings now journal _ hfiled hreplay =>
    simp only [replay, bind_eq_ok_iff, pure_eq_ok_iff] at hreplay
    obtain ⟨records, hquery, state, hstate, last, hlast, rfl⟩ := hreplay
    have hcounter := hfiled.latestSequence_eq hquery hlast
    have hsequence : last.getD 0 = state.sequence := by
      unfold replayState at hstate
      split at hstate
      · rename_i hnone
        cases hstate
        rw [hcounter, hnone]
        rfl
      · rename_i r hr
        simp only [bind_eq_ok_iff, pure_eq_ok_iff] at hstate
        obtain ⟨books, -, rfl⟩ := hstate
        rw [hcounter, hr]
        rfl
    exact ⟨rfl, rfl, hsequence⟩

namespace Opening

theorem ordered (h : Opening b) : b.Ordered := ordered_of_single h.earlier

theorem history_eq (h : Opening b) : b.history = [b.latest] := by
  rw [history, h.earlier]

/-- Every state that is kept is the first one with a whole number of batches. -/
theorem exists_after (h : Opening b) (hgrown : b.Grown commits b') (hs : s ∈ b'.history) :
    ∃ batches, batches <+: commits ∧ b.After batches s := by
  rw [hgrown.history] at hs
  rcases mem_states.1 (List.mem_of_mem_take hs) with ⟨c, hc, rfl⟩ | hmem
  · obtain ⟨earlier, later, rfl⟩ := List.append_of_mem hc
    have hfront : earlier ++ [c] <+: earlier ++ c :: later := ⟨later, by simp⟩
    exact ⟨earlier ++ [c], hfront, hgrown.after earlier c hfront⟩
  · rw [h.history_eq, List.mem_singleton] at hmem
    subst hmem
    exact ⟨[], List.nil_prefix, rfl, rfl, h.counter.symm⟩

/-- More batches are more changes. -/
theorem length_changes_lt {batches batches' : List Commit}
    (hchanges : ∀ c ∈ commits, c.mutations ≠ []) (hfront : batches <+: commits)
    (hfront' : batches' <+: commits) (hlength : batches.length < batches'.length) :
    (batches.flatMap (·.mutations)).length < (batches'.flatMap (·.mutations)).length := by
  obtain ⟨more, rfl⟩ := List.prefix_of_prefix_length_le hfront hfront' (Nat.le_of_lt hlength)
  rw [List.length_append] at hlength
  obtain ⟨c, hc⟩ := List.exists_mem_of_length_pos (l := more) (by omega)
  have hne := hchanges c (hfront'.subset (List.mem_append_right _ hc))
  have hmore : more.flatMap (·.mutations) ≠ [] := fun hnil =>
    hne (List.flatMap_eq_nil_iff.1 hnil c hc)
  rw [List.flatMap_append, List.length_append]
  have := List.length_pos_of_ne_nil hmore
  omega

/-- **The sequence numbers go up.** -/
theorem pairwise_sequence (h : Opening b) (hgrown : b.Grown commits b') :
    b'.history.Pairwise fun newer older => older.sequence < newer.sequence := by
  refine (LedgerState.follows_of_chain hgrown.ordered.chain).imp_of_mem ?_
  intro newer older hnewer holder hfollows
  obtain ⟨batches, hfront, hafter⟩ := h.exists_after hgrown hnewer
  obtain ⟨batches', hfront', hafter'⟩ := h.exists_after hgrown holder
  have hversion := hfollows.version
  rw [hafter.version, hafter'.version] at hversion
  have := length_changes_lt hgrown.changes hfront' hfront (by omega)
  rw [hafter.sequence, hafter'.sequence]
  omega

/-- Something was dropped exactly if fewer states are kept than there were. -/
theorem pruned_iff (h : Opening b) (hgrown : b.Grown commits b') :
    b'.pruned = true ↔ b'.history.length ≤ commits.length := by
  have hlength : (b.states commits).length = commits.length + 1 := by
    rw [length_states, h.history_eq, List.length_singleton]
  rw [hgrown.pruned, h.pruned, Bool.false_or, decide_eq_true_iff, hgrown.history,
    List.length_take, hlength]
  omega

end Opening

/-- **A book keeps the newest of its versions, and reads find the right one of them.**  Since it
was opened, whatever was posted to it and whatever the clock told:

* it keeps its latest state and no more states than it may, which are the newest of those that the
  batches made and the one before them;
* their versions are consecutive, and none was committed before an older one;
* each of them is the first state with a whole number of batches, as to version, books and
  sequence number, and a newer one has the larger number;
* a read answers with the newest version of its time, if one is kept that is old enough, and
  otherwise with the oldest that is kept, if any were dropped, or else with an error;
* reads of later instants answer with no older versions;
* and a snapshot is newer than what was asked for exactly if the read fell back. -/
theorem Becomes.keeps_newest_versions (hopened : Opened b) (h : b.Becomes commits b') :
    (b'.history.head? = some b'.latest ∧
      b'.history.length ≤ max b'.settings.historyLimit 1 ∧
      b'.history = ((commits.map (·.state)).reverse ++ [b.latest]).take
        (max b'.settings.historyLimit 1)) ∧
    b'.history.IsChain LedgerState.Succeeds ∧
    (∀ s ∈ b'.history, ∃ batches, batches <+: commits ∧ b.After batches s) ∧
    (b'.history.Pairwise fun newer older => older.sequence < newer.sequence) ∧
    (∀ t, (∃ s ∈ b'.history, s.committedAt ≤ t) →
      ∃ s, b'.NewestAt t s ∧ b'.viewAt t = .ok s) ∧
    (∀ t, b'.StartsAfter t → b'.viewAt t =
      if b'.history.length < commits.length + 1 then .ok b'.oldest
      else .error (.versionUnavailable t.toOffsetText)) ∧
    (b'.oldest ∈ b'.history ∧ ∀ s ∈ b'.history, b'.oldest.version ≤ s.version) ∧
    (∀ t t' s, t ≤ t' → b'.viewAt t = .ok s →
      ∃ s', b'.viewAt t' = .ok s' ∧ s.version ≤ s'.version) ∧
    (∀ t s, b'.viewAt t = .ok s →
      ((LedgerSnapshot.ofState s t).isLaterThanRequested = true ↔ b'.StartsAfter t)) := by
  have hopening := hopened.opening
  have hgrown := h.grown hopening.ordered
  have hordered := hgrown.ordered
  have hkept : b'.history =
      ((commits.map (·.state)).reverse ++ [b.latest]).take (max b'.settings.historyLimit 1) := by
    rw [hgrown.history, states, hopening.history_eq, hgrown.settings]
    rfl
  refine ⟨⟨rfl, hordered.bounded, hkept⟩, hordered.chain,
    fun s hs => hopening.exists_after hgrown hs, hopening.pairwise_sequence hgrown,
    ?_, fun t hafter => ?_,
    ⟨b'.oldest_mem_history, fun s hs => hordered.oldest_version_le hs⟩,
    fun t t' s ht hview => hordered.exists_viewAt_of_le ht hview,
    fun t s hview => hordered.isLaterThanRequested_iff hview⟩
  · rintro t ⟨s, hs, ht⟩
    exact hordered.exists_newestAt hs ht
  · rw [viewAt_of_startsAfter hafter]
    exact if_congr ((hopening.pruned_iff hgrown).trans Nat.lt_succ_iff.symm) rfl rfl

/-- A book that keeps one state, a deposit, and a read from before the deposit. -/
theorem keeps_newest_versions_of_one :
    ∃ (b b' : LedgerBook) (c : Commit) (t : Instant), Opened b ∧ b.settings.historyLimit = 0 ∧
      b.Becomes [c] b' ∧ c.mutations = [deposit] ∧ b'.StartsAfter t ∧
      b'.viewAt t = .ok b'.oldest ∧
      (LedgerSnapshot.ofState b'.oldest t).isLaterThanRequested = true := by
  obtain ⟨s, b', hbecomes, hhistory, -, hlater, -⟩ := exists_deposited
  have hopened : Opened (fresh { historyLimit := 0 } .epoch) := .fresh _ _
  have hafter : b'.StartsAfter .epoch := by
    intro s' hs'
    rw [hhistory, List.mem_singleton] at hs'
    exact hs' ▸ hlater
  obtain ⟨-, -, -, -, -, hfallback, -, -, hnewer⟩ := hbecomes.keeps_newest_versions hopened
  have hview : b'.viewAt .epoch = .ok b'.oldest := by
    rw [hfallback .epoch hafter, hhistory]
    rfl
  exact ⟨_, b', ⟨[deposit], s⟩, .epoch, hopened, rfl, hbecomes, rfl, hafter, hview,
    (hnewer _ _ hview).2 hafter⟩

end LedgerBook
end Reconciliation
