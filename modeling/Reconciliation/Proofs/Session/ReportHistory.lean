/-
# Interchangeable stores of reports

A store is used by calls, and all that can be seen of it are its answers.  A store that keeps a
log answers as the log does, after any calls whatever; so whatever is promised of a log is
promised of both stores.  A log promises that a report that was taken is never lost and never
replaced, and that the latest of them can be listed.

* `ReportStore.history`, `ReportStore.taken`: calls with their answers, and the reports taken;
* `StoreCall.Regular`: what is asked of the reports;
* `Refines.history_eq`: a store that keeps a log has its history;
* `ReportStore.AppendOnly`, `ReportStore.IsLatest`: the promises;
* `ReportStore.interchangeable`: both stores have one history and keep the promises.
-/
import Reconciliation.Proofs.Session.ReportLog

namespace Reconciliation

/-! ## 1. Calls and answers -/

inductive StoreCall
  | append (r : Report)
  | get (id : Uuid)
  | recent (limit : Nat)

inductive StoreAnswer
  | appended (result : Except ReconciliationError Unit)
  | report (result : Except ReconciliationError (Option Report))
  | reports (result : Except ReconciliationError (List Report))

namespace StoreCall

def report? : StoreCall → Option Report
  | .append r => some r
  | _ => none

/-- The reports that calls are made to store. -/
def offered (calls : List StoreCall) : List Report := calls.filterMap report?

/-- Each report that is offered can be read back and started in a year of four digits, reports of
different sessions did not start together, and there are not more than the storage can count. -/
structure Regular (calls : List StoreCall) : Prop where
  storable : ∀ r ∈ offered calls, r.Storable
  year : ∀ r ∈ offered calls, r.startedAt.HasPlainYear
  starts : ∀ r ∈ offered calls, ∀ r' ∈ offered calls, r.startedAt = r'.startedAt → r.id = r'.id
  length : (offered calls).length ≤ signedLimit

theorem Regular.of_append {calls later : List StoreCall} (h : Regular (calls ++ later)) :
    Regular calls := by
  have hsub : (offered calls).Sublist (offered (calls ++ later)) :=
    (List.sublist_append_left calls later).filterMap report?
  exact ⟨fun r hr => h.storable r (hsub.subset hr), fun r hr => h.year r (hsub.subset hr),
    fun r hr r' hr' => h.starts r (hsub.subset hr) r' (hsub.subset hr'),
    Nat.le_trans hsub.length_le h.length⟩

end StoreCall

namespace ReportStore

variable {σ : Type}

/-- Answers a call.  Only a report that is taken changes the state. -/
def step (store : ReportStore σ) (state : σ) : StoreCall → StoreAnswer × σ
  | .append r =>
    match store.append state r with
    | .ok next => (.appended (.ok ()), next)
    | .error e => (.appended (.error e), state)
  | .get id => (.report (store.get state id), state)
  | .recent limit => (.reports (store.recent state limit), state)

/-- The state that calls lead to. -/
def after (store : ReportStore σ) (calls : List StoreCall) : σ :=
  calls.foldl (fun state call => (store.step state call).2) store.empty

/-- The answer to a call that follows others. -/
def answer (store : ReportStore σ) (calls : List StoreCall) (call : StoreCall) : StoreAnswer :=
  (store.step (store.after calls) call).1

def historyFrom (store : ReportStore σ) (state : σ) :
    List StoreCall → List (StoreCall × StoreAnswer)
  | [] => []
  | call :: rest =>
    (call, (store.step state call).1) :: store.historyFrom (store.step state call).2 rest

/-- Calls with their answers. -/
def history (store : ReportStore σ) (calls : List StoreCall) : List (StoreCall × StoreAnswer) :=
  store.historyFrom store.empty calls

/-- The report that was taken by a call. -/
def taken? : StoreCall × StoreAnswer → Option Report
  | (.append r, .appended (.ok ())) => some r
  | _ => none

/-- The reports that were taken, in order. -/
def taken (store : ReportStore σ) (calls : List StoreCall) : List Report :=
  (store.history calls).filterMap taken?

/-! ## 2. Histories -/

variable {store : ReportStore σ} {calls : List StoreCall} {call : StoreCall}

theorem after_concat (store : ReportStore σ) (calls : List StoreCall) (call : StoreCall) :
    store.after (calls ++ [call]) = (store.step (store.after calls) call).2 := by
  rw [after, List.foldl_append]
  rfl

theorem history_concat (store : ReportStore σ) (calls : List StoreCall) (call : StoreCall) :
    store.history (calls ++ [call]) = store.history calls ++ [(call, store.answer calls call)] := by
  -- the state at which the calls begin changes with each of them
  suffices h : ∀ state, store.historyFrom state (calls ++ [call]) = store.historyFrom state calls ++
      [(call, (store.step (calls.foldl (fun state call => (store.step state call).2) state)
        call).1)] from h store.empty
  induction calls with
  | nil => exact fun _ => rfl
  | cons first rest ih =>
    intro state
    rw [List.cons_append, historyFrom, ih]
    rfl

theorem taken_concat (store : ReportStore σ) (calls : List StoreCall) (call : StoreCall) :
    store.taken (calls ++ [call]) =
      store.taken calls ++ (taken? (call, store.answer calls call)).toList := by
  rw [taken, history_concat, List.filterMap_append, ← taken]
  cases h : taken? (call, store.answer calls call) <;> simp [h]

/-! ## 3. A store that keeps a log -/

section Refinement

variable {form : ReportLog → σ}

theorem Refines.step_append (h : store.Refines form) (l : ReportLog) (r : Report) :
    store.step (form l) (.append r) =
      ((log.step l (.append r)).1, form (log.step l (.append r)).2) := by
  have happend : log.append l r = l.append r := rfl
  rw [step, step, h.append, happend]
  cases l.append r with
  | error e => rfl
  | ok l' => rfl

theorem Refines.after_eq (h : store.Refines form) (calls : List StoreCall) :
    store.after calls = form (log.after calls) := by
  induction calls using List.reverseRecOn with
  | nil => exact h.empty
  | append_singleton calls call ih =>
    rw [after_concat, after_concat, ih]
    cases call with
    | append r => rw [h.step_append]
    | get id => rfl
    | recent limit => rfl

/-- Its answers are those of the log. -/
theorem Refines.answer_eq (h : store.Refines form) (hregular : (log.after calls).Regular)
    (call : StoreCall) :
    store.answer calls call = log.answer calls call := by
  rw [answer, answer, h.after_eq]
  cases call with
  | append r => rw [h.step_append]
  | get id => exact congrArg StoreAnswer.report (h.get _ id hregular)
  | recent limit => exact congrArg StoreAnswer.reports (h.recent _ limit hregular)

end Refinement

end ReportStore

/-! ## 4. The log -/

namespace ReportLog

variable {l : ReportLog} {r : Report}

theorem append_of_unfinished (h : r.status = .inProgress) :
    l.append r = .error (.unfinishedReport r.id r.status) := by
  unfold ReportLog.append Report.ensureFinal
  rw [h]
  rfl

theorem append_of_final (h : r.status ≠ .inProgress) :
    l.append r = if l.any (·.id == r.id) then .error (.alreadyStored r.id) else .ok (r :: l) := by
  have hfinal : r.status.isFinal = true := bne_iff_ne.2 h
  unfold ReportLog.append Report.ensureFinal
  rw [hfinal]
  rfl

theorem append_of_mem {a : Report} (h : r.status ≠ .inProgress) (ha : a ∈ l) (hid : a.id = r.id) :
    l.append r = .error (.alreadyStored r.id) := by
  have hany : l.any (·.id == r.id) = true := List.any_eq_true.2 ⟨a, ha, beq_iff_eq.2 hid⟩
  rw [append_of_final h, hany]
  rfl

theorem append_of_fresh (h : r.status ≠ .inProgress) (hfresh : ∀ a ∈ l, a.id ≠ r.id) :
    l.append r = .ok (r :: l) := by
  have hany : l.any (·.id == r.id) = false :=
    List.any_eq_false.2 fun a ha => by simpa using hfresh a ha
  rw [append_of_final h, hany]
  rfl

/-- A report is taken if it is final and the first of its session. -/
theorem append_cases (l : ReportLog) (r : Report) :
    (l.append r = .ok (r :: l) ∧ ∀ a ∈ l, a.id ≠ r.id) ∨ ∃ e, l.append r = .error e := by
  by_cases h : r.status = .inProgress
  · exact .inr ⟨_, append_of_unfinished h⟩
  by_cases hfresh : ∀ a ∈ l, a.id ≠ r.id
  · exact .inl ⟨append_of_fresh h hfresh, hfresh⟩
  · obtain ⟨a, ha, hid⟩ : ∃ a ∈ l, a.id = r.id := by simpa using hfresh
    exact .inr ⟨_, append_of_mem h ha hid⟩

end ReportLog

namespace ReportStore

variable {σ : Type} {calls : List StoreCall}

/-- A call adds the report that it takes. -/
theorem log_step (l : ReportLog) (call : StoreCall) :
    ((log.step l call).2 = (taken? (call, (log.step l call).1)).toList ++ l) ∧
      ∀ r ∈ taken? (call, (log.step l call).1), call.report? = some r ∧ ∀ a ∈ l, a.id ≠ r.id := by
  cases call with
  | append r =>
    have happend : log.append l r = l.append r := rfl
    rw [step, happend]
    rcases l.append_cases r with ⟨hok, hfresh⟩ | ⟨e, herror⟩
    · rw [hok]
      refine ⟨rfl, fun r' hr' => ?_⟩
      cases hr'
      exact ⟨rfl, hfresh⟩
    · rw [herror]
      simp [taken?]
  | get id => simp [step, taken?]
  | recent limit => simp [step, taken?]

/-- The log lists what was taken, the last first. -/
theorem after_log (calls : List StoreCall) : log.after calls = (log.taken calls).reverse := by
  induction calls using List.reverseRecOn with
  | nil => rfl
  | append_singleton calls call ih =>
    rw [after_concat, (log_step _ _).1, taken_concat, List.reverse_append, ← ih, answer]
    cases taken? (call, (log.step (log.after calls) call).1) <;> rfl

theorem nodup_ids_after (calls : List StoreCall) : ((log.after calls).map (·.id)).Nodup := by
  induction calls using List.reverseRecOn with
  | nil => exact List.nodup_nil
  | append_singleton calls call ih =>
    obtain ⟨hstate, hfresh⟩ := log_step (log.after calls) call
    rw [after_concat, hstate]
    cases htaken : taken? (call, (log.step (log.after calls) call).1) with
    | none => exact ih
    | some r =>
      rw [htaken] at hfresh
      refine List.nodup_cons.2 ⟨fun hr => ?_, ih⟩
      obtain ⟨a, ha, hid⟩ := List.mem_map.1 hr
      exact (hfresh r rfl).2 a ha hid

/-- What was taken was offered. -/
theorem taken_sublist (calls : List StoreCall) :
    (log.taken calls).Sublist (StoreCall.offered calls) := by
  induction calls using List.reverseRecOn with
  | nil => exact List.Sublist.slnil
  | append_singleton calls call ih =>
    rw [taken_concat, StoreCall.offered, List.filterMap_append]
    refine ih.append ?_
    -- the last call takes the report that it offers, or none
    have hoffered := (log_step (log.after calls) call).2
    rw [answer]
    cases htaken : taken? (call, (log.step (log.after calls) call).1) with
    | none => exact List.nil_sublist _
    | some r =>
      have hreport := (hoffered r htaken).1
      simp [hreport]

theorem regular_after (h : StoreCall.Regular calls) : (log.after calls).Regular := by
  have hmem : ∀ {r}, r ∈ log.after calls → r ∈ StoreCall.offered calls := fun hr => by
    rw [after_log, List.mem_reverse] at hr
    exact (taken_sublist calls).subset hr
  have hids := nodup_ids_after calls
  refine ⟨hids, fun r hr => h.storable r (hmem hr), fun r hr => h.year r (hmem hr), ?_, ?_⟩
  · refine List.pairwise_map.2 ((List.pairwise_map.1 hids).imp_of_mem fun ha hb hne hstart => ?_)
    exact hne (h.starts _ (hmem ha) _ (hmem hb) hstart)
  · rw [after_log, List.length_reverse]
    exact Nat.le_trans (taken_sublist calls).length_le h.length

/-- **A store that keeps a log has its history.** -/
theorem Refines.history_eq {store : ReportStore σ} {form : ReportLog → σ} (h : store.Refines form)
    (hregular : StoreCall.Regular calls) : store.history calls = log.history calls := by
  induction calls using List.reverseRecOn with
  | nil => rfl
  | append_singleton calls call ih =>
    have hbefore := hregular.of_append
    rw [history_concat, history_concat, ih hbefore, h.answer_eq (regular_after hbefore)]

end ReportStore

/-! ## 5. What stores promise -/

/-- The list of at most `limit` reports that started last, the latest first. -/
structure IsLatest (limit : Nat) (reports listed : List Report) : Prop where
  length : listed.length = min limit reports.length
  newestFirst : listed.Pairwise fun a b => b.startedAt < a.startedAt
  subset : ∀ r ∈ listed, r ∈ reports
  latest : ∀ r ∈ reports, r ∉ listed → ∀ a ∈ listed, r.startedAt < a.startedAt

/-- Logs list the latest reports. -/
theorem ReportLog.isLatest_recent {l : ReportLog} {reports : List Report} (hperm : l.Perm reports)
    (hstarts : (l.map (·.startedAt)).Nodup) (limit : Nat) :
    IsLatest limit reports (l.recent limit) := by
  have hsame : l.byStart.Perm reports := l.byStart_perm.trans hperm
  have hsorted : l.byStart.Pairwise fun a b => b.startedAt < a.startedAt := by
    have hdistinct := List.pairwise_map.1 ((l.byStart_perm.map (·.startedAt)).nodup_iff.2 hstarts)
    refine (l.pairwise_byStart.and hdistinct).imp fun {a b} ⟨hle, hne⟩ => ?_
    have hnot : ¬ a.startedAt ≤ b.startedAt := fun hge => hne (Instant.le_antisymm hge hle)
    rwa [Instant.le_iff_not_lt, Decidable.not_not] at hnot
  refine ⟨?_, hsorted.sublist (List.take_sublist limit _), fun r hr => ?_, fun r hr hnot a ha => ?_⟩
  · rw [ReportLog.recent, List.length_take, hsame.length_eq]
  · exact hsame.subset (List.mem_of_mem_take hr)
  · have hr := hsame.symm.subset hr
    rw [← List.take_append_drop limit l.byStart, List.mem_append] at hr
    rw [← List.take_append_drop limit l.byStart, List.pairwise_append] at hsorted
    exact hsorted.2.2 a ha r (hr.resolve_left hnot)

namespace ReportStore

variable {σ : Type}

/-- What a store promises after some calls: a report that was taken is found, and found
unchanged; a final report is taken unless its session has one, which then stays; and the latest
of the reports can be listed. -/
structure AppendOnly (store : ReportStore σ) (calls : List StoreCall) : Prop where
  found : ∀ r ∈ store.taken calls, store.answer calls (.get r.id) = .report (.ok (some r))
  unknown : ∀ id, (∀ r ∈ store.taken calls, r.id ≠ id) →
    store.answer calls (.get id) = .report (.ok none)
  fresh : ∀ r, r.status ≠ .inProgress → (∀ a ∈ store.taken calls, a.id ≠ r.id) →
    store.answer calls (.append r) = .appended (.ok ())
  repeated : ∀ a ∈ store.taken calls, ∀ r, r.id = a.id → r.status ≠ .inProgress →
    store.step (store.after calls) (.append r) =
      (.appended (.error (.alreadyStored r.id)), store.after calls)
  unfinished : ∀ r, r.status = .inProgress →
    store.step (store.after calls) (.append r) =
      (.appended (.error (.unfinishedReport r.id r.status)), store.after calls)
  recent : ∀ limit, ∃ listed, store.answer calls (.recent limit) = .reports (.ok listed) ∧
    IsLatest limit (store.taken calls) listed

theorem Refines.appendOnly {store : ReportStore σ} {form : ReportLog → σ} {calls : List StoreCall}
    (h : store.Refines form) (hregular : StoreCall.Regular calls) : store.AppendOnly calls := by
  -- every promise is read off the log, which has the same answers and the same reports
  have hlog := regular_after hregular
  have hanswer := h.answer_eq hlog
  have htaken : store.taken calls = log.taken calls := by
    rw [taken, h.history_eq hregular, taken]
  have hmem : ∀ r, r ∈ store.taken calls ↔ r ∈ log.after calls := fun r => by
    rw [htaken, after_log, List.mem_reverse]
  have hperm : (log.after calls).Perm (store.taken calls) := by
    rw [htaken, after_log]
    exact List.reverse_perm _
  have hstep : ∀ {r e}, (log.after calls).append r = .error e →
      store.step (store.after calls) (.append r) = (.appended (.error e), store.after calls) := by
    intro r e herror
    rw [h.after_eq, step, h.append, herror]
    rfl
  constructor
  case found =>
    intro r hr
    have hget := (ReportLog.get_eq_some_iff hlog.ids).2 ⟨(hmem r).1 hr, rfl⟩
    rw [hanswer]
    exact congrArg (fun o => StoreAnswer.report (.ok o)) hget
  case unknown =>
    intro id hid
    have hget : (log.after calls).get id = none :=
      List.find?_eq_none.2 fun r hr => by simpa using hid r ((hmem r).2 hr)
    rw [hanswer]
    exact congrArg (fun o => StoreAnswer.report (.ok o)) hget
  case fresh =>
    intro r hfinal hfresh
    have happend := ReportLog.append_of_fresh hfinal fun a ha => hfresh a ((hmem a).2 ha)
    rw [answer, h.after_eq, step, h.append, happend]
    rfl
  case repeated =>
    intro a ha r hid hfinal
    exact hstep (ReportLog.append_of_mem hfinal ((hmem a).1 ha) hid.symm)
  case unfinished =>
    intro r hstatus
    exact hstep (ReportLog.append_of_unfinished hstatus)
  case recent =>
    intro limit
    exact ⟨_, hanswer _, ReportLog.isLatest_recent hperm hlog.starts limit⟩

/-- **The map and the table are interchangeable, and neither loses or replaces a report.** -/
theorem interchangeable {calls : List StoreCall} (h : StoreCall.Regular calls) :
    memory.history calls = table.history calls ∧
      (∀ r ∈ memory.taken calls, (Json.ofText? r.toJson.compact).bind Report.ofJson? = some r) ∧
      memory.AppendOnly calls ∧ table.AppendOnly calls := by
  have hmemory : memory.history calls = log.history calls := refines_memory.history_eq h
  refine ⟨hmemory.trans (refines_table.history_eq h).symm, fun r hr => ?_,
    refines_memory.appendOnly h, refines_table.appendOnly h⟩
  rw [taken, hmemory] at hr
  exact Report.ofText?_payload (h.storable r ((taken_sublist calls).subset hr))

/-- A session with a failed exchange that starts some seconds after the first instant. -/
def sampleSession (id seconds : Nat) : Session :=
  (Session.start (.ofNat id) (Instant.epoch.addNanos (seconds * 1000000000))).recordFailure
    (.of .exchange "paper")

/-- Its report, some milliseconds later. -/
def sampleReport (id seconds ms : Nat) : Report :=
  let s := sampleSession id seconds
  .ofSession s (s.startTime.addNanos (ms * 1000000))

/-- The reports of two sessions, of which the later ends first; another report of the first
session, and one of a session that goes on. -/
def sampleCalls : List StoreCall :=
  [.append (sampleReport 2 1 250), .append (sampleReport 1 0 1500),
    .append (sampleReport 1 0 3000),
    .append { sampleReport 3 2 0 with session := sampleSession 3 2 },
    .get (sampleReport 1 0 1500).id, .recent 1, .recent (wordCount - 1)]

theorem storable_sampleSession {id seconds : Nat}
    (h : Instant.yearInRange (sampleSession id seconds).startTime.date.year = true) :
    (sampleSession id seconds).Storable :=
  (Session.storable_start h).recordFailure (by decide)

theorem storable_sampleReport {id seconds ms : Nat}
    (hstart : Instant.yearInRange (sampleSession id seconds).startTime.date.year = true)
    (hend : Instant.yearInRange
      ((sampleSession id seconds).startTime.addNanos (ms * 1000000)).date.year = true)
    (hduration : let d := (sampleReport id seconds ms).summary.durationSeconds
      (Json.NumberText.ofChars? d.scientific.toList).bind (·.number?) = some (.real d)) :
    (sampleReport id seconds ms).Storable :=
  Report.storable_ofSession (storable_sampleSession hstart) hend (show 0 < wordCount by decide)
    (Json.ofText?_compact_ofReal hduration)

theorem regular_sampleCalls : StoreCall.Regular sampleCalls := by
  have hfirst : (sampleReport 1 0 1500).Storable :=
    storable_sampleReport (by decide) (by decide) (by decide +kernel)
  have hagain : (sampleReport 1 0 3000).Storable :=
    storable_sampleReport (by decide) (by decide) (by decide +kernel)
  have hsecond : (sampleReport 2 1 250).Storable :=
    storable_sampleReport (by decide) (by decide) (by decide +kernel)
  have hpending : (sampleReport 3 2 0).Storable :=
    storable_sampleReport (by decide) (by decide) (by decide +kernel)
  have hoffered : StoreCall.offered sampleCalls = [sampleReport 2 1 250, sampleReport 1 0 1500,
      sampleReport 1 0 3000, { sampleReport 3 2 0 with session := sampleSession 3 2 }] := rfl
  constructor
  case storable =>
    rw [hoffered]
    simp only [List.forall_mem_cons, List.not_mem_nil, false_imp_iff, implies_true, and_true]
    exact ⟨hsecond, hfirst, hagain, storable_sampleSession (by decide), hpending.summary⟩
  case year =>
    rw [hoffered]
    simp only [List.forall_mem_cons, List.not_mem_nil, false_imp_iff, implies_true, and_true]
    refine ⟨⟨?_, ?_⟩, ⟨?_, ?_⟩, ⟨?_, ?_⟩, ?_, ?_⟩ <;> decide
  case starts =>
    -- only the two reports of the first session started together
    rw [hoffered]
    decide +kernel
  case length =>
    rw [hoffered]
    decide

theorem interchangeable_sampleCalls :
    StoreCall.Regular sampleCalls ∧
      memory.taken sampleCalls = [sampleReport 2 1 250, sampleReport 1 0 1500] ∧
      memory.history sampleCalls = table.history sampleCalls ∧
      (∀ r ∈ memory.taken sampleCalls,
        (Json.ofText? r.toJson.compact).bind Report.ofJson? = some r) ∧
      memory.AppendOnly sampleCalls ∧ table.AppendOnly sampleCalls :=
  ⟨regular_sampleCalls, by decide +kernel, interchangeable regular_sampleCalls⟩

end ReportStore
end Reconciliation
