/-
# Simulated sessions can happen

A report is judged by the course of its session: which tasks ended, with what and in which order.
What an engine on the bench goes through is such a course, so all that holds of courses holds of
its sessions, with the snapshots that were collected.

* `EngineBench.Wired`: an engine with exchanges, each under its own name; `EngineBench.new` makes
  no other;
* `EngineBench.plan`: what happens in a session;
* `EngineBench.plan_course`, `EngineBench.collected_of_mem_plan`: it can happen;
* `EngineBench.finishes_iff`: a session is finished exactly if nothing overflows;
* `EngineBench.plan_readsFrom`, `EngineBench.serves_of_finished`: over a ledger book, it reads the
  book as of its start, and is one more of the sessions on it.
-/
import Reconciliation.Proofs.Session.Announcement
import Reconciliation.Proofs.Session.Containment
import Reconciliation.Proofs.Session.LedgerVersion
import Reconciliation.Simulation.Session

namespace Reconciliation

/-! ## 1. Collections -/

namespace ExchangeSnapshot

variable {e : ExchangeId} {time : Instant}
  {results : List (Category × Except ReconciliationError CategoryState)}

theorem exchange_ofFetches : (ofFetches e time results).exchange = e := by
  suffices h : ∀ s : ExchangeSnapshot, (results.foldl addFetch s).exchange = s.exchange from h _
  induction results with
  | nil => exact fun s => rfl
  | cons result rest ih =>
    intro s
    rw [List.foldl_cons, ih]
    obtain ⟨c, answer⟩ := result
    cases answer with
    | ok state => cases state <;> rfl
    | error error => rfl

theorem collected_ofFetches : (ofFetches e time results).Collected := by
  refine ⟨time, results, ?_⟩
  rw [exchange_ofFetches]

end ExchangeSnapshot

namespace SimulatedExchange

variable {s : EngineSettings} {wall : Nat → Instant} {start horizon : Nat}
  {e : SimulatedExchange} {snapshot : ExchangeSnapshot}

/-- What a collection gives was fetched from the exchange that it asked. -/
theorem collect_eq_ok (h : (e.collect s wall start horizon).1 = .ok snapshot) :
    snapshot.exchange = e.venue.exchange ∧ snapshot.Collected := by
  unfold collect at h
  dsimp only at h
  split at h
  · cases h
  · obtain ⟨results, -, rfl⟩ := map_eq_ok_iff.1 h
    exact ⟨ExchangeSnapshot.exchange_ofFetches, ExchangeSnapshot.collected_ofFetches⟩

end SimulatedExchange

namespace SimulatedLedger

/-- A book is read once and at once. -/
theorem read_book (s : EngineSettings) (time : Instant) (start horizon : Nat) (book : LedgerBook) :
    (SimulatedLedger.book book).read s time start horizon =
      (.ok (((book.viewAt time).mapError .ledger).map (LedgerSnapshot.ofState · time)),
        ⟨.book book, start, some horizon⟩) := by
  have hcall : ∀ t : Timed SimulatedLedger, t.world = .book book →
      (readWithin s.ledgerTimeout <$> call s.ledgerTimeout time).run.run t =
        (.ok ((book.viewAt time).mapError .ledger), t) := by
    rintro ⟨-, now, horizon⟩ rfl
    rfl
  have hstands : ∀ e, (book.viewAt time).mapError ReconciliationError.ledger = .error e →
      isTransientRead e = false := by
    intro e he
    unfold LedgerBook.viewAt at he
    split at he
    · cases he
    · split at he
      · cases he
      · cases he
        rfl
  unfold SimulatedLedger.read readExpected RetryPolicy.run
  cases s.retry.maxRetries with
  | zero => rfl
  | succ n =>
    unfold RetryPolicy.runFrom Timeline.start
    simp only [ExceptT.run_bind, StateT.run_bind, hcall]
    cases hanswer : (book.viewAt time).mapError ReconciliationError.ledger with
    | ok st => rfl
    | error e =>
      change StateT.run (ExceptT.run (if isTransientRead e = true then _ else _)) _ >>= _ = _
      rw [hstands e hanswer]
      rfl

end SimulatedLedger

namespace EngineBench

/-! ## 2. Tasks -/

/-- `r.Ended order`: the completions are the ends of these tasks, in this order, and the snapshots
were collected. -/
structure TaskResults.Ended (r : TaskResults) (order : List SessionTask) : Prop where
  ends : List.Forall₂ SessionTask.EndsWith order (r.completions.map (·.2))
  collected : ∀ x, .collected x ∈ r.completions.map (·.2) → x.Collected

variable {s : EngineSettings} {wall : Nat → Instant} {start horizon : Nat}

/-- One more task has ended. -/
theorem TaskResults.Ended.concat {r r' : TaskResults} {order : List SessionTask}
    {task : SessionTask} {time : Nat} {c : Completion} (h : r.Ended order)
    (hr : r'.completions = r.completions ++ [(time, c)]) (hends : task.EndsWith c)
    (hcollected : ∀ x, c = .collected x → x.Collected) : r'.Ended (order ++ [task]) := by
  have hcompletions : r'.completions.map (·.2) = r.completions.map (·.2) ++ [c] := by
    rw [hr, List.map_append, List.map_singleton]
  constructor
  · rw [hcompletions]
    exact List.rel_append h.ends (.cons hends .nil)
  · intro x hx
    rw [hcompletions, List.mem_append, List.mem_singleton] at hx
    rcases hx with hx | hx
    · exact h.collected x hx
    · exact hcollected x hx.symm

/-- The collections that ended are among those that were to be run; if nothing was cut off, they
are all of them. -/
theorem runCollections_ended {rest : List (ExchangeId × SimulatedExchange)} (ends : List Nat)
    (results : TaskResults) {order : List SessionTask}
    (hnamed : ∀ p ∈ rest, p.2.venue.exchange = p.1) (h : results.Ended order) :
    ∃ done, done.Sublist (rest.map (·.1)) ∧
      (runCollections s wall start horizon ends results rest).Ended
        (order ++ done.map .collection) ∧
      ((runCollections s wall start horizon ends results rest).unfinished = false →
        results.unfinished = false ∧ done = rest.map (·.1)) := by
  induction rest generalizing ends results order with
  | nil =>
    refine ⟨[], .slnil, ?_, fun hunfinished => ⟨hunfinished, rfl⟩⟩
    rw [List.map_nil, List.append_nil]
    exact h
  | cons p rest ih =>
    obtain ⟨id, e⟩ := p
    obtain ⟨hid, hnamed⟩ : e.venue.exchange = id ∧ ∀ p ∈ rest, p.2.venue.exchange = p.1 :=
      List.forall_mem_cons.1 hnamed
    -- the collection ended, and the others are run after it
    have hmore : ∀ {ends' results'}, TaskResults.Ended results' (order ++ [.collection id]) →
        results'.unfinished = results.unfinished →
        ∃ done, done.Sublist (id :: rest.map (·.1)) ∧
          (runCollections s wall start horizon ends' results' rest).Ended
            (order ++ done.map .collection) ∧
          ((runCollections s wall start horizon ends' results' rest).unfinished = false →
            results.unfinished = false ∧ done = id :: rest.map (·.1)) := by
      intro ends' results' hended hsame
      obtain ⟨done, hsublist, hdone, hall⟩ := ih ends' results' hnamed hended
      refine ⟨id :: done, hsublist.cons_cons id, ?_, fun hunfinished => ?_⟩
      · rwa [List.map_cons, List.append_cons]
      · obtain ⟨hunfinished, rfl⟩ := hall hunfinished
        exact ⟨hsame ▸ hunfinished, rfl⟩
    unfold runCollections
    dsimp only
    split
    · refine ⟨[], List.nil_sublist _, ?_, nofun⟩
      rw [List.map_nil, List.append_nil]
      exact ⟨h.ends, h.collected⟩
    · split
      · rename_i snapshot hsnapshot
        obtain ⟨hexchange, hcollected⟩ := SimulatedExchange.collect_eq_ok hsnapshot
        have hends : (SessionTask.collection id).EndsWith (.collected snapshot) := by
          rw [← hid, ← hexchange]
          exact .collected snapshot
        refine hmore (h.concat rfl hends fun x hx => ?_) rfl
        cases hx
        exact hcollected
      · refine hmore (h.concat rfl (.lost _) fun x hx => ?_) rfl
        cases hx
      · obtain ⟨done, hsublist, hdone, hall⟩ :=
          ih _ { results with unfinished := true, exchanges := _ } hnamed ⟨h.ends, h.collected⟩
        exact ⟨done, hsublist.cons id, hdone, fun hunfinished => nomatch (hall hunfinished).1⟩

/-! ## 3. Benches -/

variable {b : EngineBench}

/-- `b.Wired`: there are exchanges, and each is kept under its own name. -/
structure Wired (b : EngineBench) : Prop where
  configured : b.exchanges.keys ≠ []
  named : ∀ id e, b.exchanges.get? id = some e → e.venue.exchange = id

/-- Exchanges that are added one by one are kept, each under its own name. -/
theorem named_of_foldlM {ε : Type} {l : List SimulatedExchange}
    {f : SortedMap ExchangeId SimulatedExchange → SimulatedExchange →
      Except ε (SortedMap ExchangeId SimulatedExchange)}
    (hf : ∀ m e m', f m e = .ok m' → m' = m.insert e.venue.exchange e)
    {m m' : SortedMap ExchangeId SimulatedExchange} (h : l.foldlM f m = .ok m')
    (hnamed : ∀ id e, m.get? id = some e → e.venue.exchange = id) :
    (∀ id e, m'.get? id = some e → e.venue.exchange = id) ∧
      ∀ id, id ∈ m'.keys ↔ id ∈ m.keys ∨ ∃ e ∈ l, id = e.venue.exchange := by
  induction l generalizing m with
  | nil =>
    obtain rfl : m = m' := Except.ok.inj h
    exact ⟨hnamed, fun id => by simp⟩
  | cons e rest ih =>
    rw [List.foldlM_cons, bind_eq_ok_iff] at h
    obtain ⟨m₁, hm₁, hrest⟩ := h
    obtain rfl := hf m e m₁ hm₁
    obtain ⟨hnamed', hkeys⟩ := ih hrest (SortedMap.forall_insert hnamed rfl)
    refine ⟨hnamed', fun id => ?_⟩
    rw [hkeys, SortedMap.mem_keys_insert, List.exists_mem_cons_iff, or_comm (a := id = _), or_assoc]

/-- An engine is wired from its start. -/
theorem wired_new {settings : EngineSettings} {exchanges : List SimulatedExchange}
    {ledger : SimulatedLedger} {store : SimulatedStore} {failingSink : Bool}
    (h : new settings exchanges ledger store failingSink = .ok b) : b.Wired := by
  unfold new at h
  obtain ⟨-, -, h⟩ := bind_eq_ok_iff.1 h
  rw [ite_throw_eq_ok_iff] at h
  obtain ⟨hsome, h⟩ := h
  obtain ⟨m, hm, hb⟩ := bind_eq_ok_iff.1 h
  obtain rfl := Except.ok.inj hb
  have hadd : ∀ (m : SortedMap ExchangeId SimulatedExchange) e m',
      (if m.contains e.venue.exchange then throw (.repeatedExchange e.venue.exchange.text)
        else return m.insert e.venue.exchange e : Except ConfigurationFault _) = .ok m' →
      m' = m.insert e.venue.exchange e := by
    intro m e m' hm'
    rw [ite_throw_eq_ok_iff] at hm'
    exact (Except.ok.inj hm'.2).symm
  obtain ⟨hnamed, hkeys⟩ := named_of_foldlM hadd hm fun id e he => by
    rw [SortedMap.get?_empty] at he
    cases he
  refine ⟨?_, hnamed⟩
  obtain ⟨e, he⟩ := List.exists_mem_of_ne_nil exchanges (by simpa using hsome)
  exact List.ne_nil_of_mem ((hkeys _).2 (.inr ⟨e, he, rfl⟩))

/-- What the read of the ledger comes to before a horizon. -/
def readTask (b : EngineBench) (horizon : Nat) : TaskResults :=
  let (read, t) := b.ledger.read b.settings (b.wall b.now) b.now horizon
  let completions := match read with
    | .ok (.ok snapshot) => [(t.now, Completion.ledgerRead snapshot)]
    | .ok (.error e) => [(t.now, .ledgerFailed e)]
    | .error .broken => [(t.now, .lost)]
    | .error .cutOff => []
  { exchanges := b.exchanges, ledger := t.world, completions
    unfinished := completions.isEmpty, last := if completions.isEmpty then b.now else t.now }

theorem runTasks_eq (b : EngineBench) (horizon : Nat) : b.runTasks horizon =
    runCollections b.settings b.wall b.now horizon [] (b.readTask horizon) b.exchanges.entries :=
  rfl

theorem readTask_ended (b : EngineBench) (horizon : Nat) :
    ∃ ended : List SessionTask, ended.Sublist [.ledger] ∧ (b.readTask horizon).Ended ended ∧
      ((b.readTask horizon).unfinished = false → ended = [.ledger]) := by
  have hnone : ∀ c : Completion, c.snapshot? = none → ∀ x, .collected x ∈ [c] → x.Collected := by
    intro c hc x hx
    obtain rfl := List.mem_singleton.1 hx
    cases hc
  unfold readTask
  dsimp only
  split
  · rename_i ledger _
    exact ⟨[.ledger], .refl _, ⟨.cons (.ledgerRead ledger) .nil, hnone _ rfl⟩, fun _ => rfl⟩
  · rename_i error _
    exact ⟨[.ledger], .refl _, ⟨.cons (.ledgerFailed error) .nil, hnone _ rfl⟩, fun _ => rfl⟩
  · exact ⟨[.ledger], .refl _, ⟨.cons (.lost .ledger) .nil, hnone _ rfl⟩, fun _ => rfl⟩
  · refine ⟨[], List.nil_sublist _, ⟨.nil, fun x hx => ?_⟩, fun h => ?_⟩
    · cases hx
    · cases h

/-- The tasks that ended before a horizon, each of them once. -/
theorem runTasks_ended (h : b.Wired) (horizon : Nat) :
    ∃ order : List SessionTask, order.Nodup ∧ order ⊆ .ledger :: b.exchanges.keys.map .collection ∧
      (b.runTasks horizon).Ended order ∧ ((b.runTasks horizon).unfinished = false →
        .ledger :: b.exchanges.keys.map .collection ⊆ order) := by
  have hnamed : ∀ p ∈ b.exchanges.entries, p.2.venue.exchange = p.1 := fun p hp =>
    h.named p.1 p.2 (SortedMap.mem_entries_iff.1 hp)
  have hkeys : b.exchanges.keys.Nodup := SortedMap.nodup_keys _
  rw [runTasks_eq]
  obtain ⟨ended, hsublist, hended, hall⟩ := readTask_ended b horizon
  obtain ⟨done, hdone, hended', hall'⟩ := runCollections_ended [] _ hnamed hended
  have horder : (ended ++ done.map SessionTask.collection).Sublist
      (.ledger :: b.exchanges.keys.map .collection) :=
    hsublist.append (hdone.map _)
  have htasks : (SessionTask.ledger :: b.exchanges.keys.map .collection).Nodup := by
    refine List.nodup_cons.2 ⟨by simp, hkeys.map ?_⟩
    exact fun e e' he => SessionTask.collection.inj he
  refine ⟨ended ++ done.map .collection, htasks.sublist horder, horder.subset, hended', ?_⟩
  intro hunfinished
  obtain ⟨hread, rfl⟩ := hall' hunfinished
  rw [hall hread]
  exact List.Subset.refl _

/-! ## 4. Sessions -/

variable {limit : Span} {cancelAfter : Option Nat}

/-- What happens in a session. -/
def plan (b : EngineBench) (limit : Span) (cancelAfter : Option Nat) : SessionPlan :=
  let (horizon, interruption) := interruptionAt b.now limit cancelAfter
  let results := b.runTasks horizon
  let time := if results.unfinished then horizon else results.last
  { id := Uuid.stamped sessionTag b.sessions, startTime := b.wall b.now
    exchanges := b.exchanges.keys
    completions := (results.completions.mergeSort fun x y => x.1 ≤ y.1).map (·.2)
    interruption := if results.unfinished then some interruption else none
    now := fun _ => b.wall time, endTime := b.wall time }

theorem perm_completions_plan :
    ((b.runTasks (interruptionAt b.now limit cancelAfter).1).completions.map (·.2)).Perm
      (b.plan limit cancelAfter).completions :=
  ((List.mergeSort_perm _ _).map Prod.snd).symm

/-- **What happens in a session is a course that can happen.** -/
theorem plan_course (h : b.Wired) : (b.plan limit cancelAfter).Course := by
  obtain ⟨order, hnodup, hsubset, hended, hall⟩ :=
    runTasks_ended h (interruptionAt b.now limit cancelAfter).1
  have hrun : { b.plan limit cancelAfter with completions :=
      (b.runTasks (interruptionAt b.now limit cancelAfter).1).completions.map Prod.snd }.Course := by
    refine ⟨h.configured, SortedMap.nodup_keys _, order, hnodup, hsubset, hended.ends, ?_⟩
    intro hinterruption
    refine hall ?_
    cases hunfinished : (b.runTasks (interruptionAt b.now limit cancelAfter).1).unfinished with
    | false => rfl
    | true =>
      simp only [plan, hunfinished, if_true] at hinterruption
      cases hinterruption
  exact hrun.reorder perm_completions_plan

theorem collected_of_mem_plan (h : b.Wired) {x : ExchangeSnapshot}
    (hx : .collected x ∈ (b.plan limit cancelAfter).completions) : x.Collected := by
  obtain ⟨order, -, -, hended, -⟩ := runTasks_ended h (interruptionAt b.now limit cancelAfter).1
  exact hended.collected x (perm_completions_plan.symm.subset hx)

section Started

variable (hlimit : limit.isZero = false) (hcancel : cancelAfter ≠ some 0)
include hlimit hcancel

/-- A session that is started ends with the report on what happened in it. -/
theorem reconcile_of_perform_eq_ok {report : Report}
    (h : (b.plan limit cancelAfter).perform b.settings.tolerances = .ok report) :
    (b.reconcile limit cancelAfter).1 = .finished report := by
  unfold reconcile
  rw [hlimit, if_neg Bool.false_ne_true, if_neg hcancel]
  dsimp only
  split
  · rename_i hperform
    cases hperform.symm.trans h
  · rename_i hperform
    cases hperform.symm.trans h
    rfl

/-- If an operation overflows, the session breaks on it. -/
theorem reconcile_of_perform_eq_error {operation : Decimal.Overflow}
    (h : (b.plan limit cancelAfter).perform b.settings.tolerances = .error operation) :
    (b.reconcile limit cancelAfter).1 = .broken operation := by
  unfold reconcile
  rw [hlimit, if_neg Bool.false_ne_true, if_neg hcancel]
  dsimp only
  split
  · rename_i hperform
    cases hperform.symm.trans h
    rfl
  · rename_i hperform
    cases hperform.symm.trans h

/-- **A session is finished exactly if nothing overflows** in the comparison of a snapshot with the
ledger. -/
theorem finishes_iff (h : b.Wired) :
    (∃ report, (b.reconcile limit cancelAfter).1 = .finished report) ↔
      ∀ ledger x, .ledgerRead ledger ∈ (b.plan limit cancelAfter).completions →
        .collected x ∈ (b.plan limit cancelAfter).completions →
          Detection.InRange b.settings.tolerances x (ledger.expected x.exchange) := by
  rw [← (plan_course h).reports_iff]
  constructor
  · rintro ⟨report, hreport⟩
    cases hperform : (b.plan limit cancelAfter).perform b.settings.tolerances with
    | ok report' => exact ⟨report', rfl⟩
    | error operation =>
      rw [reconcile_of_perform_eq_error hlimit hcancel hperform] at hreport
      cases hreport
  · rintro ⟨report, hreport⟩
    exact ⟨report, reconcile_of_perform_eq_ok hlimit hcancel hreport⟩

end Started

/-! ## 5. Sessions over a book -/

/-- A collection is no read of the ledger. -/
theorem mem_completions_runCollections {rest : List (ExchangeId × SimulatedExchange)}
    {ends : List Nat} {results : TaskResults} {c : Completion} (hreading : c.isReading = true)
    (h : c ∈ (runCollections s wall start horizon ends results rest).completions.map (·.2)) :
    c ∈ results.completions.map (·.2) := by
  induction rest generalizing ends results with
  | nil => exact h
  | cons p rest ih =>
    have hother : ∀ {time : Nat} {c' : Completion}, c'.isReading = false →
        c ∈ (results.completions ++ [(time, c')]).map (·.2) →
        c ∈ results.completions.map (·.2) := by
      intro time c' hc' hmem
      rw [List.map_append, List.map_singleton, List.mem_append, List.mem_singleton] at hmem
      rcases hmem with hmem | rfl
      · exact hmem
      · rw [hc'] at hreading
        cases hreading
    unfold runCollections at h
    dsimp only at h
    split at h
    · exact h
    · split at h
      · exact hother rfl (ih h)
      · exact hother rfl (ih h)
      · have hmem := ih h
        exact hmem

/-- **A session of an engine over a book reads the book as of its start**: the first answer stands,
as no answer of a book is worth repeating. -/
theorem plan_readsFrom {book : LedgerBook} (h : b.ledger = .book book) :
    (b.plan limit cancelAfter).ReadsFrom book := by
  intro ledger hread
  have hmem : .ledgerRead ledger ∈ (b.readTask _).completions.map (·.2) :=
    mem_completions_runCollections rfl (perm_completions_plan.symm.subset hread)
  unfold readTask at hmem
  rw [h, SimulatedLedger.read_book] at hmem
  cases hview : book.viewAt (b.wall b.now) with
  | ok st =>
    rw [hview] at hmem
    cases List.mem_singleton.1 hmem
    exact ⟨st, hview, rfl⟩
  | error e =>
    rw [hview] at hmem
    exact absurd (List.mem_singleton.1 hmem) nofun

/-- **A finished session of an engine over a book is one more of the sessions on that book.** -/
theorem serves_of_finished {b₀ book : LedgerBook} {reports : List Report} {report : Report}
    (hb : b.Wired) (hlimit : limit.isZero = false) (hcancel : cancelAfter ≠ some 0)
    (hledger : b.ledger = .book book) (h : (b.reconcile limit cancelAfter).1 = .finished report)
    (hserves : b₀.Serves b.settings.tolerances reports book) :
    b₀.Serves b.settings.tolerances (reports ++ [report]) book := by
  refine hserves.session (p := b.plan limit cancelAfter) (plan_course hb)
    (plan_readsFrom hledger) ?_
  cases hperform : (b.plan limit cancelAfter).perform b.settings.tolerances with
  | error operation =>
    rw [reconcile_of_perform_eq_error hlimit hcancel hperform] at h
    cases h
  | ok report' =>
    rw [reconcile_of_perform_eq_ok hlimit hcancel hperform] at h
    cases h
    rfl

end EngineBench

end Reconciliation
