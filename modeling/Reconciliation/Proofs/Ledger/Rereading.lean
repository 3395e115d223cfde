/-
# Reading a ledger again

A session reads the ledger as of its start, while batches are still being posted.  A second read
of the same instant must find the same state, and a read of a later instant no older one; the only
thing that can come in between is the limit of the history, which takes a state away.

* `LedgerBook.Grown.mem_history_iff`: when a state is still kept;
* `LedgerBook.NewestAt.viewAt_of_kept`, `LedgerBook.NewestAt.viewAt_of_dropped`: the same instant;
* `LedgerBook.Becomes.version_le_of_viewAt`: a later instant.
-/
import Reconciliation.Proofs.Ledger.Reading

namespace Reconciliation

/-- In a chain of versions, newest first, the versions count down. -/
theorem LedgerState.version_of_chain {l : List LedgerState} {newest s : LedgerState} {i : Nat}
    (h : l.IsChain Succeeds) (hhead : l.head? = some newest) (hs : l[i]? = some s) :
    s.version + i = newest.version := by
  induction l generalizing newest i with
  | nil => cases hs
  | cons a rest ih =>
    obtain rfl : a = newest := Option.some.inj hhead
    cases i with
    | zero =>
      obtain rfl : a = s := Option.some.inj hs
      rfl
    | succ i =>
      rw [List.getElem?_cons_succ] at hs
      cases rest with
      | nil => cases hs
      | cons b rest =>
        obtain ⟨hsucceeds, hrest⟩ := List.isChain_cons_cons.1 h
        have hversion := ih hrest rfl hs
        rw [hsucceeds.version, ← hversion, Nat.add_assoc]

namespace LedgerBook

variable {b b' : LedgerBook} {t t' : Instant} {s s' : LedgerState} {commits : List Commit}

/-! ## 1. Books over time -/

theorem Becomes.trans {b₁ b₂ : LedgerBook} {more : List Commit} (h : b.Becomes commits b₁)
    (hmore : b₁.Becomes more b₂) : b.Becomes (commits ++ more) b₂ := by
  induction hmore with
  | start => exact (List.append_nil commits).symm ▸ h
  | posted _ hne hrun ih =>
    rw [← List.append_assoc]
    exact ih.posted hne hrun
  | idle _ hrun ih => exact ih.idle hrun
  | refused _ hrun ih => exact ih.refused hrun
  | switched running _ ih => exact ih.switched running
  | faulty appendFault latestFault _ hj ih => exact ih.faulty appendFault latestFault hj

/-- **A state is kept exactly until as many have come after it as there is room for.** -/
theorem Grown.mem_history_iff (h : b.Grown commits b') (hs : s ∈ b.states commits) :
    s ∈ b'.history ↔ b'.latest.version < s.version + max b'.settings.historyLimit 1 := by
  have hlimit : max b'.settings.historyLimit 1 = b.capacity := h.capacity_eq
  have hcount : ∀ {i}, (b.states commits)[i]? = some s → s.version + i = b'.latest.version :=
    fun hi => LedgerState.version_of_chain h.chain h.head?_states hi
  rw [hlimit]
  constructor
  · intro hkept
    rw [h.history] at hkept
    obtain ⟨i, hi⟩ := List.mem_iff_getElem?.1 hkept
    rw [List.getElem?_take] at hi
    split at hi
    · have := hcount hi
      omega
    · cases hi
  · intro hroom
    obtain ⟨i, hi⟩ := List.mem_iff_getElem?.1 hs
    have hfits : i < b.capacity := by
      have := hcount hi
      omega
    rw [h.history]
    refine List.mem_iff_getElem?.2 ⟨i, ?_⟩
    rw [List.getElem?_take, if_pos hfits, hi]

/-! ## 2. The same instant -/

section Later

variable (hgrown : b.Grown commits b') (hlater : ∀ c ∈ commits, t < c.state.committedAt)
include hgrown hlater

/-- Of the states that are kept later, only those from before can be old enough. -/
theorem NewestAt.version_le (hnewest : b.NewestAt t s) (hs' : s' ∈ b'.history)
    (ht : s'.committedAt ≤ t) : s'.version ≤ s.version := by
  rw [hgrown.history] at hs'
  rcases mem_states.1 (List.mem_of_mem_take hs') with ⟨c, hc, rfl⟩ | hbefore
  · exact absurd (hlater c hc) (Instant.le_iff_not_lt.1 ht)
  · exact hnewest.newest s' hbefore ht

/-- The same state is read again for as long as it is kept. -/
theorem NewestAt.viewAt_of_kept (hnewest : b.NewestAt t s) (hkept : s ∈ b'.history) :
    b'.viewAt t = .ok s := by
  refine hgrown.ordered.viewAt_eq_ok_iff.2 (.inl ⟨hkept, hnewest.committed, ?_⟩)
  intro s' hs' ht
  exact hnewest.version_le hgrown hlater hs' ht

/-- Once it has been dropped, all that is kept is newer, and the oldest of it is read. -/
theorem NewestAt.viewAt_of_dropped (hnewest : b.NewestAt t s) (hdropped : s ∉ b'.history) :
    b'.StartsAfter t ∧ s.version < b'.oldest.version ∧ b'.viewAt t = .ok b'.oldest := by
  have hs : s ∈ b.states commits := mem_states.2 (.inr hnewest.kept)
  have hafter : b'.StartsAfter t := by
    intro s' hs'
    by_contra hnot
    have hle := hnewest.version_le hgrown hlater hs' (Instant.le_iff_not_lt.2 hnot)
    exact Nat.not_lt.2 hle (hgrown.version_lt_of_dropped hs hdropped hs')
  have hpruned : b'.pruned = true := by
    have hlong : b.capacity < (b.states commits).length := by
      by_contra hfits
      rw [hgrown.history, List.take_of_length_le (Nat.not_lt.1 hfits)] at hdropped
      exact hdropped hs
    rw [hgrown.pruned, decide_eq_true hlong, Bool.or_true]
  refine ⟨hafter, hgrown.version_lt_of_dropped hs hdropped b'.oldest_mem_history, ?_⟩
  rw [viewAt_of_startsAfter hafter, if_pos hpruned]

end Later

/-! ## 3. A later instant -/

/-- Nothing that a book has had since is older than the oldest state that it kept. -/
theorem Grown.oldest_version_le (h : b.Grown commits b') (hs : s ∈ b.states commits) :
    b.oldest.version ≤ s.version := by
  refine version_le_of_getLast? (LedgerState.follows_of_chain h.chain) ?_ hs
  rw [states, List.getLast?_append, b.getLast?_history]
  rfl

/-- **A later read of a later instant finds no older state.** -/
theorem Becomes.version_le_of_viewAt (hb : b.Ordered) (h : b.Becomes commits b') (ht : t ≤ t')
    (hview : b.viewAt t = .ok s) (hview' : b'.viewAt t' = .ok s') : s.version ≤ s'.version := by
  have hgrown := h.grown hb
  have hs : s ∈ b.states commits := mem_states.2 (.inr (hb.mem_of_viewAt hview))
  have hs' : s' ∈ b'.history := hgrown.ordered.mem_of_viewAt hview'
  by_cases hkept : s ∈ b'.history
  · rcases hb.viewAt_eq_ok_iff.1 hview with hnewest | ⟨-, -, rfl⟩
    · have hold : s.committedAt ≤ t' := Instant.le_trans hnewest.committed ht
      rcases hgrown.ordered.viewAt_eq_ok_iff.1 hview' with hnewest' | ⟨hafter, -, -⟩
      · exact hnewest'.newest s hkept hold
      · exact absurd (hafter s hkept) (Instant.le_iff_not_lt.1 hold)
    · -- the first read fell back, so the second cannot go behind it
      rw [hgrown.history] at hs'
      exact hgrown.oldest_version_le (List.mem_of_mem_take hs')
  · exact Nat.le_of_lt (hgrown.version_lt_of_dropped hs hkept hs')

end LedgerBook

end Reconciliation
