/-
# Every exchange has an outcome

Whatever the tasks of a session come to and whenever it is interrupted, its report has one outcome
for each exchange, and the status that these outcomes call for.

* `Session.finalStatus_eq_completed_iff`, `Session.finalStatus_eq_partiallyCompleted_iff`: what the
  status of a session says;
* `SessionPlan.Course.outcome_closing_iff`, `SessionPlan.Course.checked_closing_iff`: what came of
  an exchange in the end;
* `SessionPlan.Course.accounts_for_every_exchange`: the reports.
-/
import Reconciliation.Proofs.Session.Settlement

namespace Reconciliation

/-! ## 1. Status -/

namespace Session

variable {s : Session}

/-- A session can be relied on in part at least. -/
def Reliable (s : Session) : Prop :=
  s.cancelled = false ∧ s.ledgerVersion.isSome = true ∧ s.checked.toList ≠ []

theorem reliable_iff :
    s.Reliable ↔ (s.cancelled || s.ledgerVersion.isNone || s.checked.isEmpty) = false := by
  have hchecked : s.checked.isEmpty = false ↔ s.checked.toList ≠ [] := by
    rw [SortedMap.isEmpty, SortedSet.toList, SortedMap.keys, Ne, List.map_eq_nil_iff,
      Bool.eq_false_iff, Ne, List.isEmpty_iff]
  rw [Bool.or_eq_false_iff, Bool.or_eq_false_iff, hchecked, and_assoc, Reliable,
    ← Option.not_isSome, Bool.not_eq_false']

theorem finalStatus_of_reliable (h : s.Reliable) : s.finalStatus =
    if ∀ o ∈ s.outcomes.values, o = .complete then .completed else .partiallyCompleted := by
  have hall : s.outcomes.values.all (· = .complete) = true ↔
      ∀ o ∈ s.outcomes.values, o = .complete := by
    simp only [List.all_eq_true, decide_eq_true_eq]
  rw [finalStatus, reliable_iff.1 h, if_neg Bool.false_ne_true]
  exact if_congr hall rfl rfl

theorem finalStatus_of_not_reliable (h : ¬ s.Reliable) : s.finalStatus = .failed := by
  rw [reliable_iff, Bool.not_eq_false] at h
  rw [finalStatus, h]
  rfl

theorem isFinal_finalStatus (s : Session) : s.finalStatus.isFinal = true := by
  by_cases h : s.Reliable
  · rw [finalStatus_of_reliable h]
    split <;> rfl
  · rw [finalStatus_of_not_reliable h]
    rfl

theorem finalStatus_eq_completed_iff : s.finalStatus = .completed ↔
    s.Reliable ∧ ∀ o ∈ s.outcomes.values, o = .complete := by
  by_cases h : s.Reliable
  · rw [finalStatus_of_reliable h]
    by_cases hall : ∀ o ∈ s.outcomes.values, o = .complete
    · exact ⟨fun _ => ⟨h, hall⟩, fun _ => if_pos hall⟩
    · rw [if_neg hall]
      exact ⟨nofun, fun hboth => absurd hboth.2 hall⟩
  · rw [finalStatus_of_not_reliable h]
    exact ⟨nofun, fun hboth => absurd hboth.1 h⟩

theorem finalStatus_eq_partiallyCompleted_iff : s.finalStatus = .partiallyCompleted ↔
    s.Reliable ∧ ¬ ∀ o ∈ s.outcomes.values, o = .complete := by
  by_cases h : s.Reliable
  · rw [finalStatus_of_reliable h]
    by_cases hall : ∀ o ∈ s.outcomes.values, o = .complete
    · rw [if_pos hall]
      exact ⟨nofun, fun hboth => absurd hall hboth.2⟩
    · exact ⟨fun _ => ⟨h, hall⟩, fun _ => if_neg hall⟩
  · rw [finalStatus_of_not_reliable h]
    exact ⟨nofun, fun hboth => absurd hboth.1 h⟩

end Session

/-! ## 2. Outcomes -/

namespace SessionPlan

variable {p : SessionPlan} {t : Tolerances} {e : ExchangeId} {o : ExchangeOutcome}

/-- What is told at the start and at the end is not touched by what is recorded. -/
theorem closing_frame : p.closing t =
    { p.opened with
      checked := (p.closing t).checked
      outcomes := (p.closing t).outcomes
      discrepancies := (p.closing t).discrepancies } := by
  unfold closing
  rw [Session.recordFailures_frame, Session.recordAll_frame]

/-- The report has a version of the ledger if the ledger was read. -/
theorem isSome_ledgerVersion_opened :
    p.opened.ledgerVersion.isSome = true ↔ ∃ ledger, .ledgerRead ledger ∈ p.completions := by
  have hread : (∃ ledger, .ledgerRead ledger ∈ Completion.readings p.completions) ↔
      ∃ ledger, .ledgerRead ledger ∈ p.completions :=
    exists_congr fun ledger => Completion.mem_readings.trans (and_iff_left rfl)
  rw [opened, Session.noteEnd_frame]
  dsimp only
  rw [Session.isSome_ledgerVersion_foldl_hear, hread]
  exact or_iff_right Bool.false_ne_true

namespace Course

theorem outcome_closing_iff (h : p.Course) :
    (p.closing t).outcomes.get? e = some o ↔
      (∃ x ∈ p.recorded, x.exchange = e ∧ ExchangeOutcome.ofSnapshot x = o) ∨
        (e ∈ p.failed ∧ o = .failed) := by
  have hnodup := h.exchanges_accounted.nodup_iff.2 h.distinct
  obtain ⟨hrecorded, -, hdisjoint⟩ := List.nodup_append.1 hnodup
  have hnone : p.opened.outcomes.get? e = none := by
    rw [opened_frame]
    rfl
  rw [closing, Session.outcome_recordFailures]
  by_cases he : e ∈ p.failed
  · have hother : ¬ ∃ x ∈ p.recorded, x.exchange = e ∧ ExchangeOutcome.ofSnapshot x = o := by
      rintro ⟨x, hx, hxe, -⟩
      exact hdisjoint e (List.mem_map.2 ⟨x, hx, hxe⟩) e he rfl
    rw [if_pos he, Option.some.injEq, eq_comm]
    exact ⟨fun ho => .inr ⟨he, ho⟩, fun h => (h.resolve_left hother).2⟩
  · rw [if_neg he, Session.outcome_recordAll_iff hrecorded, hnone]
    simp only [he, false_and, reduceCtorEq, and_false]

/-- Among the checked exchanges are those with an outcome that is not a failure. -/
theorem checked_closing_iff (h : p.Course) :
    e ∈ (p.closing t).checked.toList ↔
      ∃ o, (p.closing t).outcomes.get? e = some o ∧ o ≠ .failed := by
  have hnodup := h.exchanges_accounted.nodup_iff.2 h.distinct
  obtain ⟨-, -, hdisjoint⟩ := List.nodup_append.1 hnodup
  have hempty : p.opened.checked.toList = [] := by
    rw [opened_frame]
    rfl
  simp only [h.outcome_closing_iff]
  rw [closing, Session.checked_recordFailures_iff, Session.checked_recordAll_iff, hempty]
  constructor
  · rintro ⟨-, ⟨x, hx, hxe, hgave⟩ | hnone⟩
    · exact ⟨_, .inl ⟨x, hx, hxe, rfl⟩, hgave⟩
    · cases hnone
  · rintro ⟨o, ⟨x, hx, hxe, rfl⟩ | ⟨-, rfl⟩, hgave⟩
    · refine ⟨fun he => ?_, .inl ⟨x, hx, hxe, hgave⟩⟩
      exact hdisjoint e (List.mem_map.2 ⟨x, hx, hxe⟩) e he rfl
    · exact absurd rfl hgave

/-- There is an outcome for each exchange, and for no other. -/
theorem perm_keys_closing (h : p.Course) : (p.closing t).outcomes.keys.Perm p.exchanges := by
  refine (List.perm_ext_iff_of_nodup (SortedMap.nodup_keys _) h.distinct).2 fun e => ?_
  rw [SortedMap.mem_keys_iff, ← h.exchanges_accounted.mem_iff, List.mem_append, List.mem_map]
  simp only [h.outcome_closing_iff]
  constructor
  · rintro ⟨o, ⟨x, hx, hxe, -⟩ | ⟨he, -⟩⟩
    · exact .inl ⟨x, hx, hxe⟩
    · exact .inr he
  · rintro (⟨x, hx, hxe⟩ | he)
    · exact ⟨_, .inl ⟨x, hx, hxe, rfl⟩⟩
    · exact ⟨_, .inr ⟨he, rfl⟩⟩

/-- The session can be relied on in part if it was not cancelled, the ledger was read and an
exchange gave something. -/
theorem reliable_closing_iff (h : p.Course) :
    (p.closing t).Reliable ↔ p.interruption ≠ some .cancelled ∧
      (∃ ledger, .ledgerRead ledger ∈ p.completions) ∧
      ∃ o ∈ (p.closing t).outcomes.values, o ≠ .failed := by
  have hcancelled : (p.closing t).cancelled = false ↔ p.interruption ≠ some .cancelled := by
    rw [closing_frame, opened_frame]
    exact decide_eq_false_iff_not
  have hversion : (p.closing t).ledgerVersion.isSome = true ↔
      ∃ ledger, .ledgerRead ledger ∈ p.completions := by
    rw [closing_frame]
    exact isSome_ledgerVersion_opened
  have hchecked : (p.closing t).checked.toList ≠ [] ↔
      ∃ o ∈ (p.closing t).outcomes.values, o ≠ .failed := by
    constructor
    · intro hne
      obtain ⟨e, he⟩ := List.exists_mem_of_ne_nil _ hne
      obtain ⟨o, ho, hgave⟩ := h.checked_closing_iff.1 he
      exact ⟨o, SortedMap.mem_values_iff.2 ⟨e, ho⟩, hgave⟩
    · rintro ⟨o, ho, hgave⟩
      obtain ⟨e, he⟩ := SortedMap.mem_values_iff.1 ho
      exact List.ne_nil_of_mem (h.checked_closing_iff.2 ⟨o, he, hgave⟩)
  rw [Session.Reliable, hcancelled, hversion, hchecked]

/-- **Every report accounts for every exchange, and its status is right.**  This is so in whatever
order the tasks end, if any of them fails or breaks off, and whenever the session is interrupted,
as long as nothing overflows. -/
theorem accounts_for_every_exchange (h : p.Course) (ht : SessionRun.Comparable t p.completions) :
    ∃ r, p.perform t = .ok r ∧
      r.session.status.isFinal = true ∧
      (∃ time, r.session.endTime = some time ∧ r.session.startTime ≤ time) ∧
      r.session.outcomes.keys.Perm p.exchanges ∧
      (∀ e, e ∈ r.session.checked.toList ↔
        ∃ o, r.session.outcomes.get? e = some o ∧ o ≠ .failed) ∧
      (r.session.status = .completed ↔ p.interruption ≠ some .cancelled ∧
        (∃ ledger, .ledgerRead ledger ∈ p.completions) ∧
        ∀ o ∈ r.session.outcomes.values, o = .complete) ∧
      (r.session.status = .partiallyCompleted ↔ p.interruption ≠ some .cancelled ∧
        (∃ ledger, .ledgerRead ledger ∈ p.completions) ∧
        (∃ o ∈ r.session.outcomes.values, o ≠ .failed) ∧
        ¬ ∀ o ∈ r.session.outcomes.values, o = .complete) ∧
      (r.session.status = .failed ↔
        r.session.status ≠ .completed ∧ r.session.status ≠ .partiallyCompleted) := by
  have hreliable := h.reliable_closing_iff (t := t)
  -- with one exchange at least, a session whose outcomes are all complete has one
  have hsome : (∀ o ∈ (p.closing t).outcomes.values, o = .complete) →
      ∃ o ∈ (p.closing t).outcomes.values, o ≠ .failed := by
    intro hall
    obtain ⟨e, he⟩ := List.exists_mem_of_ne_nil _ h.configured
    obtain ⟨o, ho⟩ := SortedMap.mem_keys_iff.1 (h.perm_keys_closing.mem_iff.2 he)
    have hvalue : o ∈ (p.closing t).outcomes.values := SortedMap.mem_values_iff.2 ⟨e, ho⟩
    refine ⟨o, hvalue, ?_⟩
    rw [hall o hvalue]
    exact nofun
  refine ⟨_, h.perform_eq ht, Session.isFinal_finalStatus _, ⟨_, rfl, Instant.le_max_right _ _⟩,
    h.perm_keys_closing, fun e => h.checked_closing_iff, ?_, ?_, ?_⟩
  · show (p.closing t).finalStatus = .completed ↔ _
    rw [Session.finalStatus_eq_completed_iff, hreliable]
    constructor
    · rintro ⟨⟨hcancelled, hread, -⟩, hall⟩
      exact ⟨hcancelled, hread, hall⟩
    · rintro ⟨hcancelled, hread, hall⟩
      exact ⟨⟨hcancelled, hread, hsome hall⟩, hall⟩
  · show (p.closing t).finalStatus = .partiallyCompleted ↔ _
    rw [Session.finalStatus_eq_partiallyCompleted_iff, hreliable]
    constructor
    · rintro ⟨⟨hcancelled, hread, hgave⟩, hall⟩
      exact ⟨hcancelled, hread, hgave, hall⟩
    · rintro ⟨hcancelled, hread, hgave, hall⟩
      exact ⟨⟨hcancelled, hread, hgave⟩, hall⟩
  · have hfinal := Session.isFinal_finalStatus (p.closing t)
    show (p.closing t).finalStatus = .failed ↔
      (p.closing t).finalStatus ≠ .completed ∧ (p.closing t).finalStatus ≠ .partiallyCompleted
    cases hstatus : (p.closing t).finalStatus with
    | inProgress =>
      rw [hstatus] at hfinal
      cases hfinal
    | completed => simp
    | partiallyCompleted => simp
    | failed => simp

/-- A session whose ledger task broke off, and that no exchange answered before the deadline. -/
theorem accounts_for_every_exchange_silent :
    let p : SessionPlan :=
      { id := default, startTime := default
        exchanges := [.of .exchange "alpha", .of .exchange "beta"], completions := [.lost]
        interruption := some (.deadline default), now := fun _ => default, endTime := default }
    ∃ r, p.perform .standard = .ok r ∧ r.session.outcomes.keys.Perm p.exchanges ∧
      r.session.status = .failed := by
  intro p
  have hcourse : p.Course := by
    refine ⟨nofun, by decide, [.ledger], List.nodup_singleton _, ?_, ?_, nofun⟩
    · exact fun task htask => List.mem_cons.2 (.inl (List.mem_singleton.1 htask))
    · exact .cons (.lost .ledger) .nil
  have ht : SessionRun.Comparable .standard p.completions := by
    intro ledger x hledger _
    exact absurd (List.mem_singleton.1 hledger) nofun
  obtain ⟨r, hr, -, -, hkeys, -, hcompleted, hpartial, hfailed⟩ :=
    accounts_for_every_exchange hcourse ht
  have hunread : ¬ ∃ ledger, .ledgerRead ledger ∈ p.completions := by
    rintro ⟨ledger, hledger⟩
    exact absurd (List.mem_singleton.1 hledger) nofun
  refine ⟨r, hr, hkeys, hfailed.2 ⟨fun hstatus => ?_, fun hstatus => ?_⟩⟩
  · exact hunread (hcompleted.1 hstatus).2.1
  · exact hunread (hpartial.1 hstatus).2.1

end Course
end SessionPlan

end Reconciliation
