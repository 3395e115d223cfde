/-
# The version of the ledger that a session compares with

A session reads the ledger as of its start, at whatever time its read ends.  Batches that are
posted meanwhile do not change what it reads; if they push that state out of the history, the
session says so.  And over all sessions of a program the versions never go back.

* `SessionPlan.Course.ledgerVersion_iff`, `SessionPlan.Course.laterNote_mem`: the version and the
  note in a report;
* `SessionPlan.ReadsFrom`: the session reads a ledger book as of its start;
* `LedgerBook.Becomes.repeats_read`: a read after more batches;
* `LedgerBook.Serves`: sessions on one book, with batches in between;
* `LedgerBook.Reachable.never_goes_back`: their versions.
-/
import Reconciliation.Proofs.Ledger.Rereading
import Reconciliation.Proofs.Session.Accounting
import Reconciliation.Proofs.Session.Containment

namespace Reconciliation

/-! ## 1. What a report says of the ledger -/

/-- Notes at the end do not take other notes away. -/
theorem Session.mem_notes_noteEnd {s : Session} {interruption : Option Interruption}
    {view : LedgerView} {note : String} (h : note ∈ s.notes) :
    note ∈ (s.noteEnd interruption view).notes := by
  have haddNote : ∀ {s : Session} {more : String}, note ∈ s.notes → note ∈ (s.addNote more).notes :=
    fun h => List.mem_append_left _ h
  have hcancelled : note ∈ s.markCancelled.notes := by
    unfold markCancelled
    split
    · exact h
    · exact haddNote h
  simp only [noteEnd, SessionRun.noteEnd]
  rcases interruption with _ | ⟨_ | limit⟩
  · split
    · exact haddNote h
    · exact h
  · split
    · exact haddNote hcancelled
    · exact hcancelled
  · split
    · exact haddNote (haddNote h)
    · exact haddNote h

namespace SessionPlan

variable {p : SessionPlan} {tol : Tolerances} {r : Report} {ledger : LedgerSnapshot}

/-- `p.ReadsFrom b`: the ledger that the session reads is the book, as of the session's start. -/
def ReadsFrom (p : SessionPlan) (b : LedgerBook) : Prop :=
  ∀ ledger, .ledgerRead ledger ∈ p.completions →
    ∃ s, b.viewAt p.startTime = .ok s ∧ ledger = .ofState s p.startTime

namespace Course

/-- A report is on the session as it is in the end. -/
theorem eq_of_perform (h : p.Course) (hperform : p.perform tol = .ok r) :
    r = .ofSession (p.closing tol) p.endTime := by
  obtain ⟨run, hrun, -⟩ := bind_eq_ok_iff.1 hperform
  have ht : SessionRun.Comparable tol p.completions :=
    (SessionRun.comparable_iff_exists_run h.readings_length_le).2 ⟨run, hrun⟩
  exact Except.ok.inj (hperform.symm.trans (h.perform_eq ht))

/-- A report tells the start of its session, and what was noted in it. -/
theorem report_frame (h : p.Course) (hperform : p.perform tol = .ok r) :
    r.session.startTime = p.startTime ∧ r.session.ledgerVersion = p.opened.ledgerVersion ∧
      r.session.notes = p.opened.notes := by
  obtain rfl := h.eq_of_perform hperform
  show (p.closing tol).startTime = _ ∧ (p.closing tol).ledgerVersion = _ ∧
    (p.closing tol).notes = _
  rw [closing_frame]
  refine ⟨?_, rfl, rfl⟩
  show p.opened.startTime = _
  rw [opened_frame]
  rfl

/-- A session that has read the ledger notes it. -/
theorem opened_eq (h : p.Course) (hread : .ledgerRead ledger ∈ p.completions) : p.opened =
    ((Session.start p.id p.startTime).hear (.ledgerRead ledger)).noteEnd p.interruption p.view := by
  rw [opened, h.readings_eq hread rfl]
  rfl

/-- **The version in a report is that of the ledger that was read.** -/
theorem ledgerVersion_iff (h : p.Course) (hperform : p.perform tol = .ok r) {v : Nat} :
    r.session.ledgerVersion = some v ↔
      ∃ ledger, .ledgerRead ledger ∈ p.completions ∧ ledger.version = v := by
  have hversion : ∀ {ledger}, .ledgerRead ledger ∈ p.completions →
      r.session.ledgerVersion = some ledger.version := by
    intro ledger hread
    rw [(h.report_frame hperform).2.1, h.opened_eq hread, Session.noteEnd_frame]
    simp only [Session.hear]
    split <;> rfl
  constructor
  · intro hv
    have hsome : p.opened.ledgerVersion.isSome = true := by
      rw [← (h.report_frame hperform).2.1, hv]
      rfl
    obtain ⟨ledger, hread⟩ := isSome_ledgerVersion_opened.1 hsome
    rw [hversion hread, Option.some.injEq] at hv
    exact ⟨ledger, hread, hv⟩
  · rintro ⟨ledger, hread, rfl⟩
    exact hversion hread

/-- **A report says so if the ledger that was read is newer than the session's start.** -/
theorem laterNote_mem (h : p.Course) (hperform : p.perform tol = .ok r)
    (hread : .ledgerRead ledger ∈ p.completions) (hlater : ledger.isLaterThanRequested = true) :
    SessionRun.laterNote ledger ∈ r.session.notes := by
  rw [(h.report_frame hperform).2.2, h.opened_eq hread]
  refine Session.mem_notes_noteEnd ?_
  rw [Session.hear, if_pos hlater]
  exact List.mem_append_right _ (List.mem_singleton.2 rfl)

end Course

/-- The version in the report of a session is that of the state it read. -/
theorem ReadsFrom.exists_viewAt {b : LedgerBook} {v : Nat} (hreads : p.ReadsFrom b)
    (h : p.Course) (hperform : p.perform tol = .ok r) (hv : r.session.ledgerVersion = some v) :
    ∃ s, b.viewAt r.session.startTime = .ok s ∧ s.version = v := by
  obtain ⟨ledger, hread, hversion⟩ := (h.ledgerVersion_iff hperform).1 hv
  obtain ⟨s, hview, rfl⟩ := hreads ledger hread
  rw [(h.report_frame hperform).1]
  exact ⟨s, hview, hversion⟩

/-- A session with one exchange that reads a state of the ledger, and whose collection breaks
off. -/
def reading (e : ExchangeId) (s : LedgerState) (t : Instant) : SessionPlan :=
  { id := default, startTime := t, exchanges := [e]
    completions := [.ledgerRead (.ofState s t), .lost], interruption := none
    now := fun _ => t, endTime := t }

section Reading

variable {b : LedgerBook} {e : ExchangeId} {s : LedgerState} {t : Instant}

theorem reading_course : (reading e s t).Course := by
  refine ⟨List.cons_ne_nil _ _, List.nodup_singleton _, [.ledger, .collection e], by simp, ?_, ?_,
    fun _ => List.Subset.refl _⟩
  · exact List.Subset.refl _
  · exact .cons (.ledgerRead _) (.cons (.lost _) .nil)

theorem reading_readsFrom (hview : b.viewAt t = .ok s) : (reading e s t).ReadsFrom b := by
  intro ledger hread
  obtain rfl : ledger = .ofState s t := by simpa [reading] using hread
  exact ⟨s, hview, rfl⟩

/-- It reports, as there is nothing to compare. -/
theorem exists_perform_reading (tol : Tolerances) (e : ExchangeId) (s : LedgerState)
    (t : Instant) :
    ∃ r, (reading e s t).perform tol = .ok r ∧ r.session.startTime = t ∧
      r.session.ledgerVersion = some s.version := by
  have hcourse : (reading e s t).Course := reading_course
  obtain ⟨r, hr⟩ : ∃ r, (reading e s t).perform tol = .ok r := by
    refine ⟨_, hcourse.perform_eq fun ledger x _ hx => ?_⟩
    simp [reading] at hx
  exact ⟨r, hr, (hcourse.report_frame hr).1,
    (hcourse.ledgerVersion_iff hr).2 ⟨_, List.mem_cons_self, rfl⟩⟩

end Reading

end SessionPlan

namespace LedgerBook

variable {b b' : LedgerBook} {t : Instant} {s : LedgerState} {commits : List Commit}

/-! ## 2. A read after more batches -/

/-- **A read is repeated exactly, or the state has been dropped and the session says so.**  A book
gave a state of the time for an instant, and was then posted batches that were all committed later
than that.  For the same instant it now gives

* the same state, if it still keeps it, which it does until as many have come after it as there
  is room for;
* and otherwise the oldest state that it keeps, the one of all that are kept with the least version:
  that is greater than the version before, it was committed later than the instant, and a session
  that reads it reports that it compared with that version, and notes that the history no longer
  covers its start. -/
theorem Becomes.repeats_read (hb : Reachable b) (hview : b.viewAt t = .ok s)
    (ht : s.committedAt ≤ t) (h : b.Becomes commits b')
    (hlater : ∀ c ∈ commits, t < c.state.committedAt) :
    (s ∈ b'.history ↔ b'.latest.version < s.version + max b'.settings.historyLimit 1) ∧
    (s ∈ b'.history → b'.viewAt t = .ok s) ∧
    (b'.oldest ∈ b'.history ∧ ∀ s' ∈ b'.history, b'.oldest.version ≤ s'.version) ∧
    (s ∉ b'.history → b'.viewAt t = .ok b'.oldest ∧ s.version < b'.oldest.version ∧
      t < b'.oldest.committedAt ∧
      ∀ (p : SessionPlan) (tol : Tolerances) (r : Report) (ledger : LedgerSnapshot), p.Course →
        p.startTime = t → p.ReadsFrom b' → .ledgerRead ledger ∈ p.completions →
        p.perform tol = .ok r →
          r.session.ledgerVersion = some b'.oldest.version ∧
          SessionRun.laterNote (.ofState b'.oldest t) ∈ r.session.notes) := by
  have hordered := hb.ordered
  have hgrown := h.grown hordered
  have hnewest : b.NewestAt t s := by
    rcases hordered.viewAt_eq_ok_iff.1 hview with hnewest | ⟨hafter, -, rfl⟩
    · exact hnewest
    · exact absurd (hafter _ b.oldest_mem_history) (Instant.le_iff_not_lt.1 ht)
  refine ⟨hgrown.mem_history_iff (mem_states.2 (.inr hnewest.kept)),
    fun hkept => hnewest.viewAt_of_kept hgrown hlater hkept,
    ⟨b'.oldest_mem_history, fun s' hs' => hgrown.ordered.oldest_version_le hs'⟩,
    fun hdropped => ?_⟩
  obtain ⟨hafter, hnewer, hview'⟩ := hnewest.viewAt_of_dropped hgrown hlater hdropped
  refine ⟨hview', hnewer, hafter _ b'.oldest_mem_history, ?_⟩
  intro p tol r ledger hcourse hstart hreads hread hperform
  have hledger : ledger = .ofState b'.oldest t := by
    obtain ⟨s', hs', rfl⟩ := hreads ledger hread
    rw [hstart, hview', Except.ok.injEq] at hs'
    rw [hs', hstart]
  subst hledger
  have hrequested : (LedgerSnapshot.ofState b'.oldest t).isLaterThanRequested = true :=
    (hgrown.ordered.isLaterThanRequested_iff hview').2 hafter
  exact ⟨(hcourse.ledgerVersion_iff hperform).2 ⟨_, hread, rfl⟩,
    hcourse.laterNote_mem hperform hread hrequested⟩

/-- A book that keeps one state, and a deposit after the first read. -/
theorem repeats_read_after_deposit :
    ∃ (b b' : LedgerBook) (c : Commit) (s : LedgerState) (p : SessionPlan) (r : Report),
      Reachable b ∧ b.viewAt .epoch = .ok s ∧ b.Becomes [c] b' ∧ c.mutations = [deposit] ∧
      b'.viewAt .epoch = .ok b'.oldest ∧ s.version < b'.oldest.version ∧
      p.ReadsFrom b' ∧ p.perform .standard = .ok r ∧
      SessionRun.laterNote (.ofState b'.oldest .epoch) ∈ r.session.notes := by
  obtain ⟨s, b', hbecomes, hhistory, hversion, hlater, -⟩ := exists_deposited
  have hreachable : Reachable (fresh { historyLimit := 0 } .epoch) := .fresh _ _
  have hfirst : (fresh { historyLimit := 0 } .epoch).viewAt .epoch = .ok (.genesis .epoch) := rfl
  have hgone : LedgerState.genesis .epoch ∉ b'.history := by
    intro hmem
    rw [hhistory, List.mem_singleton] at hmem
    rw [← hmem] at hversion
    cases hversion
  obtain ⟨-, -, -, hdropped⟩ := hbecomes.repeats_read hreachable hfirst (Instant.le_refl _)
    (List.forall_mem_singleton.2 hlater)
  obtain ⟨hview, hnewer, -, hsession⟩ := hdropped hgone
  have hreads := SessionPlan.reading_readsFrom (e := .of .exchange "paper") hview
  obtain ⟨r, hr, -⟩ :=
    SessionPlan.exists_perform_reading .standard (.of .exchange "paper") b'.oldest .epoch
  have hnote := (hsession _ .standard r _ SessionPlan.reading_course rfl hreads
    List.mem_cons_self hr).2
  exact ⟨_, b', ⟨[deposit], s⟩, _, _, r, hreachable, hfirst, hbecomes, rfl, hview, hnewer, hreads,
    hr, hnote⟩

/-! ## 3. Sessions one after the other -/

/-- `b.Serves tol reports b'`: sessions read the book one after the other and ended with these
reports, and before and after each read it was posted batches.  Now it is `b'`. -/
inductive Serves (b : LedgerBook) (tol : Tolerances) : List Report → LedgerBook → Prop
  | start : Serves b tol [] b
  | posted {reports : List Report} {commits : List Commit} {b₁ b₂ : LedgerBook} :
      Serves b tol reports b₁ → b₁.Becomes commits b₂ → Serves b tol reports b₂
  | session {reports : List Report} {b₁ : LedgerBook} {p : SessionPlan} {r : Report} :
      Serves b tol reports b₁ → p.Course → p.ReadsFrom b₁ → p.perform tol = .ok r →
      Serves b tol (reports ++ [r]) b₁

variable {tol : Tolerances} {reports : List Report}

theorem Serves.ordered (hb : b.Ordered) (h : b.Serves tol reports b') : b'.Ordered := by
  induction h with
  | start => exact hb
  | posted _ hbecomes ih => exact (hbecomes.grown ih).ordered
  | session _ _ _ _ ih => exact ih

/-- The version in a report was read from what the book was then, and the book has only been
posted batches since. -/
theorem Serves.exists_viewAt (hb : b.Ordered) (h : b.Serves tol reports b') {r : Report} {v : Nat}
    (hr : r ∈ reports) (hv : r.session.ledgerVersion = some v) :
    ∃ (b₁ : LedgerBook) (commits : List Commit) (s : LedgerState), b₁.Ordered ∧
      b₁.Becomes commits b' ∧ b₁.viewAt r.session.startTime = .ok s ∧ s.version = v := by
  induction h with
  | start => exact absurd hr List.not_mem_nil
  | posted _ hbecomes ih =>
    obtain ⟨b₁, commits, s, hordered, hsince, hview, hversion⟩ := ih hr
    exact ⟨b₁, _, s, hordered, hsince.trans hbecomes, hview, hversion⟩
  | @session reports b₁ p r' hserves hcourse hreads hperform ih =>
    rcases List.mem_append.1 hr with hr | hr
    · exact ih hr
    · obtain rfl := List.mem_singleton.1 hr
      obtain ⟨s, hview, hversion⟩ := hreads.exists_viewAt hcourse hperform hv
      exact ⟨b₁, [], s, hserves.ordered hb, .start, hview, hversion⟩

/-- Sessions that start one after the other compare with no older versions. -/
theorem Serves.pairwise_version (hb : b.Ordered) (h : b.Serves tol reports b')
    (hstarts : (reports.map (·.session.startTime)).Pairwise (· ≤ ·)) :
    (reports.filterMap (·.session.ledgerVersion)).Pairwise (· ≤ ·) := by
  induction h with
  | start => exact .nil
  | posted _ _ ih => exact ih hstarts
  | @session reports b₁ p r hserves hcourse hreads hperform ih =>
    rw [List.map_append, List.pairwise_append] at hstarts
    obtain ⟨hearlier, -, hlast⟩ := hstarts
    rw [List.filterMap_append, List.pairwise_append]
    refine ⟨ih hearlier, ?_, ?_⟩
    · cases hv : r.session.ledgerVersion <;> simp [hv]
    · intro v hmem v' hmem'
      obtain ⟨r₁, hr₁, hv⟩ := List.mem_filterMap.1 hmem
      obtain ⟨r', hr', hv'⟩ := List.mem_filterMap.1 hmem'
      obtain rfl := List.mem_singleton.1 hr'
      obtain ⟨b₀, commits, s, hordered, hsince, hview, rfl⟩ := hserves.exists_viewAt hb hr₁ hv
      obtain ⟨s', hview', rfl⟩ := hreads.exists_viewAt hcourse hperform hv'
      have hle : r₁.session.startTime ≤ r'.session.startTime :=
        hlast _ (List.mem_map_of_mem hr₁) _ (List.mem_map_of_mem hr')
      exact hsince.version_le_of_viewAt hordered hle hview hview'

/-- **Sessions never go back in ledger time.**  Whatever is posted to a ledger book between two
reads, at whatever times of the clock and with whatever limit of the history: a later read as of
the same or a later instant finds no older version, also where one of the two falls back on the
oldest state.  So the versions that sessions report, if they start one after the other, never go
down. -/
theorem Reachable.never_goes_back (hb : Reachable b) :
    (∀ commits b' t t' s s', b.Becomes commits b' → t ≤ t' → b.viewAt t = .ok s →
      b'.viewAt t' = .ok s' → s.version ≤ s'.version) ∧
    ∀ tol reports b', b.Serves tol reports b' →
      (reports.map (·.session.startTime)).Pairwise (· ≤ ·) →
        (reports.filterMap (·.session.ledgerVersion)).Pairwise (· ≤ ·) := by
  constructor
  · intro commits b' t t' s s' h ht hview hview'
    exact h.version_le_of_viewAt hb.ordered ht hview hview'
  · intro tol reports b' h hstarts
    exact h.pairwise_version hb.ordered hstarts

/-- Two sessions that start at one time, the second of which reads after a deposit and from a book
that keeps one state. -/
theorem never_goes_back_over_deposit :
    ∃ (b b' : LedgerBook) (r r' : Report), Reachable b ∧ b.Serves .standard [r, r'] b' ∧
      r.session.startTime = r'.session.startTime ∧ r.session.ledgerVersion = some 0 ∧
      r'.session.ledgerVersion = some 1 ∧
      ([r, r'].filterMap (·.session.ledgerVersion)).Pairwise (· ≤ ·) := by
  obtain ⟨s, b', hbecomes, -, hone, -, hview'⟩ := exists_deposited
  have hreachable : Reachable (fresh { historyLimit := 0 } .epoch) := .fresh _ _
  have hview : (fresh { historyLimit := 0 } .epoch).viewAt .epoch = .ok (.genesis .epoch) := rfl
  obtain ⟨r, hr, hstart, hversion⟩ :=
    SessionPlan.exists_perform_reading .standard (.of .exchange "paper") (.genesis .epoch) .epoch
  obtain ⟨r', hr', hstart', hversion'⟩ :=
    SessionPlan.exists_perform_reading .standard (.of .exchange "paper") s .epoch
  have hserves : Serves _ .standard [r, r'] b' :=
    ((Serves.start.session SessionPlan.reading_course (SessionPlan.reading_readsFrom hview)
      hr).posted hbecomes).session SessionPlan.reading_course
        (SessionPlan.reading_readsFrom hview') hr'
  have hstarts : ([r, r'].map (·.session.startTime)).Pairwise (· ≤ ·) := by
    rw [List.map_cons, List.map_singleton, hstart, hstart', List.pairwise_pair]
    exact Instant.le_refl _
  exact ⟨_, b', r, r', hreachable, hserves, hstart.trans hstart'.symm, hversion, hone ▸ hversion',
    hreachable.never_goes_back.2 _ _ _ hserves hstarts⟩

end LedgerBook

end Reconciliation
