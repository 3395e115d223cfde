/-
# What a session has on its books

A session keeps two books of its exchanges, the outcome of each and those that were checked, and
may be told of one exchange more than once.  The outcome is always the last one.  A failure takes
the exchange off the checked ones, but a later snapshot without any data does not, so the two books
agree exactly after those entries that leave no exchange failed behind a snapshot that still
counts.

* `Session.checked_tellAll_iff`, `Session.outcome_tellAll`: either book after any entries;
* `Session.books_tellAll`: both books, when they agree, and what that means for the status.
-/
import Reconciliation.Proofs.Session.Accounting

namespace Reconciliation
namespace Session

/-! ## 1. Entries -/

/-- What a session is told. -/
inductive Entry
  | exchange (snapshot : ExchangeSnapshot) (found : List Discrepancy)
  | failure (exchange : ExchangeId)
  | note (text : String)
  | cancellation

def tell (s : Session) : Entry → Session
  | .exchange x found => s.recordExchange x found
  | .failure e => s.recordFailure e
  | .note text => s.addNote text
  | .cancellation => s.markCancelled

def tellAll (s : Session) (entries : List Entry) : Session := entries.foldl tell s

/-- The outcome that an entry gives an exchange. -/
def Entry.outcome? (e : ExchangeId) : Entry → Option ExchangeOutcome
  | .exchange x _ => if e = x.exchange then some (.ofSnapshot x) else none
  | .failure e' => if e = e' then some .failed else none
  | .note _ => none
  | .cancellation => none

/-- The last outcome that the entries give an exchange. -/
def lastOutcome (e : ExchangeId) (entries : List Entry) : Option ExchangeOutcome :=
  entries.reverse.findSome? (Entry.outcome? e)

/-- `Supplies e y`: the entry has data of the exchange. -/
def Entry.Supplies (e : ExchangeId) : Entry → Prop
  | .exchange x _ => e = x.exchange ∧ ExchangeOutcome.ofSnapshot x ≠ .failed
  | _ => False

/-- `Supplied e entries`: an entry had data of the exchange, and no failure of the exchange was
told after it. -/
def Supplied (e : ExchangeId) (entries : List Entry) : Prop :=
  ∃ before y after, entries = before ++ y :: after ∧ y.Supplies e ∧ .failure e ∉ after

variable {s : Session} {e : ExchangeId} {y : Entry} {entries : List Entry}

theorem tellAll_concat : s.tellAll (entries ++ [y]) = (s.tellAll entries).tell y := by
  rw [tellAll, List.foldl_append]
  rfl

theorem lastOutcome_concat :
    lastOutcome e (entries ++ [y]) = (y.outcome? e).or (lastOutcome e entries) := by
  rw [lastOutcome, List.reverse_append, List.reverse_singleton, List.singleton_append,
    List.findSome?_cons]
  cases y.outcome? e <;> rfl

theorem supplied_concat_iff :
    Supplied e (entries ++ [y]) ↔ y.Supplies e ∨ (y ≠ .failure e ∧ Supplied e entries) := by
  constructor
  · rintro ⟨before, z, after, hentries, hz, hafter⟩
    rcases List.eq_nil_or_concat after with rfl | ⟨after, w, rfl⟩
    · obtain ⟨-, hyz⟩ := List.append_inj' hentries rfl
      obtain rfl : y = z := List.singleton_inj.1 hyz
      exact .inl hz
    · have hlast : entries ++ [y] = (before ++ z :: after) ++ [w] := by simpa using hentries
      obtain ⟨rfl, hyw⟩ := List.append_inj' hlast rfl
      obtain rfl : y = w := List.singleton_inj.1 hyw
      rw [List.concat_eq_append, List.mem_append, not_or] at hafter
      exact .inr ⟨fun hy => hafter.2 (List.mem_singleton.2 hy.symm), before, z, after, rfl, hz,
        hafter.1⟩
  · rintro (hy | ⟨hy, before, z, after, rfl, hz, hafter⟩)
    · exact ⟨entries, y, [], rfl, hy, List.not_mem_nil⟩
    · refine ⟨before, z, after ++ [y], by simp, hz, fun hmem => ?_⟩
      rcases List.mem_append.1 hmem with hmem | hmem
      · exact hafter hmem
      · exact hy (List.mem_singleton.1 hmem).symm

/-! ## 2. One entry -/

theorem markCancelled_frame :
    s.markCancelled.checked = s.checked ∧ s.markCancelled.outcomes = s.outcomes := by
  unfold markCancelled
  split
  · exact ⟨rfl, rfl⟩
  · exact ⟨rfl, rfl⟩

theorem outcome_tell :
    (s.tell y).outcomes.get? e = (y.outcome? e).or (s.outcomes.get? e) := by
  cases y with
  | exchange x found =>
    rw [tell, outcome_recordExchange, Entry.outcome?]
    split <;> rfl
  | failure e' =>
    rw [tell, outcome_recordFailure, Entry.outcome?]
    split <;> rfl
  | note text => rfl
  | cancellation => rw [tell, markCancelled_frame.2]; rfl

theorem checked_tell_iff :
    e ∈ (s.tell y).checked.toList ↔
      y.Supplies e ∨ (y ≠ .failure e ∧ e ∈ s.checked.toList) := by
  cases y with
  | exchange x found => simp [tell, checked_recordExchange_iff, Entry.Supplies]
  | failure e' =>
    simp only [tell, recordFailure, SortedSet.mem_toList_erase, Entry.Supplies, false_or,
      Ne, Entry.failure.injEq, eq_comm]
  | note text => simp [tell, addNote, Entry.Supplies]
  | cancellation => simp [tell, markCancelled_frame.1, Entry.Supplies]

/-! ## 3. Consistency -/

/-- The checked exchanges are those whose outcome is not that they failed. -/
def Consistent (s : Session) : Prop :=
  ∀ e, e ∈ s.checked.toList ↔ ∃ o, s.outcomes.get? e = some o ∧ o ≠ .failed

/-- An entry has data of the exchange exactly if it gives it an outcome other than a failure. -/
theorem Entry.supplies_iff : y.Supplies e ↔ ∃ o, y.outcome? e = some o ∧ o ≠ .failed := by
  cases y with
  | exchange x found => by_cases he : e = x.exchange <;> simp [Supplies, outcome?, he]
  | failure e' => by_cases he : e = e' <;> simp [Supplies, outcome?, he]
  | note text => simp [Supplies, outcome?]
  | cancellation => simp [Supplies, outcome?]

/-! ## 4. Any entries -/

variable (id : Uuid) (time : Instant)

theorem outcome_tellAll (e : ExchangeId) (entries : List Entry) :
    ((start id time).tellAll entries).outcomes.get? e = lastOutcome e entries := by
  induction entries using List.reverseRecOn with
  | nil => rfl
  | append_singleton entries y ih => rw [tellAll_concat, outcome_tell, lastOutcome_concat, ih]

theorem checked_tellAll_iff (e : ExchangeId) (entries : List Entry) :
    e ∈ ((start id time).tellAll entries).checked.toList ↔ Supplied e entries := by
  induction entries using List.reverseRecOn with
  | nil =>
    refine iff_of_false List.not_mem_nil ?_
    rintro ⟨before, y, after, h, -⟩
    simp at h
  | append_singleton entries y ih =>
    rw [tellAll_concat, checked_tell_iff, supplied_concat_iff, ih]

/-- An exchange whose last outcome is not that it failed has supplied data since it last did. -/
theorem supplied_of_lastOutcome {o : ExchangeOutcome} (h : lastOutcome e entries = some o)
    (ho : o ≠ .failed) : Supplied e entries := by
  induction entries using List.reverseRecOn with
  | nil => cases h
  | append_singleton entries y ih =>
    rw [lastOutcome_concat] at h
    rw [supplied_concat_iff]
    cases hy : y.outcome? e with
    | some o' =>
      rw [hy, Option.some_or, Option.some.injEq] at h
      exact .inl (Entry.supplies_iff.2 ⟨o', hy, h ▸ ho⟩)
    | none =>
      rw [hy, Option.none_or] at h
      refine .inr ⟨?_, ih h⟩
      rintro rfl
      simp [Entry.outcome?] at hy

/-- What has supplied data has an outcome. -/
theorem exists_lastOutcome (h : Supplied e entries) : ∃ o, lastOutcome e entries = some o := by
  induction entries using List.reverseRecOn with
  | nil =>
    obtain ⟨before, y, after, hnil, -⟩ := h
    simp at hnil
  | append_singleton entries y ih =>
    rw [lastOutcome_concat]
    cases hy : y.outcome? e with
    | some o => exact ⟨o, rfl⟩
    | none =>
      rw [supplied_concat_iff, Entry.supplies_iff, hy] at h
      obtain ⟨-, hentries⟩ := h.resolve_left (by simp)
      exact ih hentries

/-- `Books entries s`: what the books of the session say after the entries. -/
structure Books (entries : List Entry) (s : Session) : Prop where
  outcome : ∀ e, s.outcomes.get? e = lastOutcome e entries
  checked : ∀ e, e ∈ s.checked.toList ↔ Supplied e entries
  /-- What did not fail is checked, and what is checked has an outcome. -/
  checked_of_outcome : ∀ e o, s.outcomes.get? e = some o → o ≠ .failed → e ∈ s.checked.toList
  outcome_of_checked : ∀ e ∈ s.checked.toList, ∃ o, s.outcomes.get? e = some o
  consistent_iff : s.Consistent ↔
    ∀ e, lastOutcome e entries = some .failed → ¬ Supplied e entries
  /-- The status that the session ends with, whatever ledger was read. -/
  status_iff : ∀ version end',
    (Report.ofSession { s with ledgerVersion := version } end').status = .failed ↔
      s.cancelled = true ∨ version = none ∨ ∀ e, ¬ Supplied e entries
  failed_of_consistent : s.Consistent → (∀ e o, s.outcomes.get? e = some o → o = .failed) →
    ∀ version end', (Report.ofSession { s with ledgerVersion := version } end').status = .failed

theorem finalStatus_eq_failed_iff : s.finalStatus = .failed ↔ ¬ s.Reliable := by
  refine ⟨fun h hs => ?_, finalStatus_of_not_reliable⟩
  rw [finalStatus_of_reliable hs] at h
  split at h <;> cases h

/-- **The books of a session after any entries.**  Outcomes are the last ones told; the checked
exchanges are those that supplied data after their last failure.  So the two agree exactly unless
an exchange sent a snapshot without data after one with data, with no failure in between. -/
theorem books_tellAll (id : Uuid) (time : Instant) (entries : List Entry) :
    Books entries ((start id time).tellAll entries) := by
  have houtcome := fun e => outcome_tellAll id time e entries
  have hchecked := fun e => checked_tellAll_iff id time e entries
  have hstatus : ∀ version end', (Report.ofSession
      { (start id time).tellAll entries with ledgerVersion := version } end').status = .failed ↔
        ((start id time).tellAll entries).cancelled = true ∨ version = none ∨
          ∀ e, ¬ Supplied e entries := by
    intro version end'
    have hempty : ((start id time).tellAll entries).checked.toList = [] ↔
        ∀ e, ¬ Supplied e entries := by
      simp only [List.eq_nil_iff_forall_not_mem, hchecked]
    show Session.finalStatus _ = .failed ↔ _
    rw [finalStatus_eq_failed_iff, Reliable, ← hempty, not_and_or, not_and_or]
    simp
  refine ⟨houtcome, hchecked, fun e o h ho => ?_, fun e h => ?_, ?_, hstatus,
    fun hconsistent hall version end' => (hstatus version end').2 (.inr (.inr fun e h => ?_))⟩
  · exact (hchecked e).2 (supplied_of_lastOutcome (houtcome e ▸ h) ho)
  · rw [houtcome]
    exact exists_lastOutcome ((hchecked e).1 h)
  · simp only [Consistent, houtcome, hchecked]
    constructor
    · intro h e hfailed hsupplied
      obtain ⟨o, ho, hne⟩ := (h e).1 hsupplied
      rw [hfailed, Option.some.injEq] at ho
      exact hne ho.symm
    · intro h e
      constructor
      · intro hsupplied
        obtain ⟨o, ho⟩ := exists_lastOutcome hsupplied
        exact ⟨o, ho, fun hfailed => h e (hfailed ▸ ho) hsupplied⟩
      · rintro ⟨o, ho, hne⟩
        exact supplied_of_lastOutcome ho hne
  · obtain ⟨o, ho, hne⟩ := (hconsistent e).1 ((hchecked e).2 h)
    exact hne (hall e o ho)

/-- A snapshot with everything, then one without anything: the outcome is that the exchange
failed, and yet it stays checked and the report is not that of a failed session. -/
theorem checked_outlasts_outage :
    let e : ExchangeId := .of .exchange "paper"
    let down : ExchangeSnapshot := .unavailable e default "down"
    let up : ExchangeSnapshot := .new e default
    let s := (start default default).tellAll [.exchange up [], .exchange down []]
    ¬ s.Consistent ∧ (∀ e' o, s.outcomes.get? e' = some o → o = .failed) ∧
      (Report.ofSession { s with ledgerVersion := some 1 } default).status =
        .partiallyCompleted := by
  intro e down up s
  have hchecked : e ∈ s.checked.toList := by decide
  have houtcome : ∀ e' o, s.outcomes.get? e' = some o → o = .failed := by
    intro e' o h
    rw [outcome_tellAll] at h
    by_cases he : e' = e
    · subst he
      have hlast : lastOutcome e [.exchange up [], .exchange down []] = some .failed := by
        decide
      exact Option.some.inj (h.symm.trans hlast)
    · have hup : up.exchange = e := rfl
      have hdown : down.exchange = e := rfl
      simp [lastOutcome, Entry.outcome?, hup, hdown, he] at h
  refine ⟨fun h => ?_, houtcome, by decide⟩
  obtain ⟨o, ho, hne⟩ := (h e).1 hchecked
  exact hne (houtcome e o ho)

end Session
end Reconciliation
