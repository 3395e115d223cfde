/-
# Stores of reports as logs

Behind either store is the list of the reports it has taken, the last first: the map keeps them
under their sessions, the table as rows in just that order.  A call answers from the list, so the
stores answer alike.  Taking a report needs no assumption for that.  Reading one back from the
table does, and so does listing: the table sorts by the texts of the starts and leaves reports
that started together in another order than the map would.

* `ReportStore`, `ReportStore.log`: the operations of a store, and the list as a store;
* `ReportLog.Regular`: what is asked of the reports;
* `ReportStore.Refines`: a store that keeps a log in its own form;
* `refines_memory`, `refines_table`: both stores do.
-/
import Mathlib.Data.List.Basic
import Mathlib.Data.List.Nodup
import Reconciliation.Session.Store
import Reconciliation.Proofs.Checked
import Reconciliation.Proofs.Session.ReportRecord
import Reconciliation.Proofs.Time.TextOrder

namespace Reconciliation

/-! ## 1. Stores -/

/-- The operations of a store on its states. -/
structure ReportStore (σ : Type) where
  empty : σ
  append : σ → Report → Except ReconciliationError σ
  get : σ → Uuid → Except ReconciliationError (Option Report)
  recent : σ → Nat → Except ReconciliationError (List Report)

/-- Reports in the order in which they were taken, the last first. -/
abbrev ReportLog := List Report

namespace ReportLog

def append (log : ReportLog) (r : Report) : Except ReconciliationError ReportLog := do
  r.ensureFinal
  if log.any (·.id == r.id) then throw (.alreadyStored r.id) else return r :: log

def get (log : ReportLog) (id : Uuid) : Option Report := log.find? (·.id == id)

/-- The latest first. -/
def byStart (log : ReportLog) : List Report :=
  log.mergeSort fun a b => b.startedAt ≤ a.startedAt

def recent (log : ReportLog) (limit : Nat) : List Report := log.byStart.take limit

/-- Reports that either store can give back: each can be read back and started in a year of four
digits, no two are of one session or started together, and there are not more than the storage can
count. -/
structure Regular (log : ReportLog) : Prop where
  ids : (log.map (·.id)).Nodup
  storable : ∀ r ∈ log, r.Storable
  year : ∀ r ∈ log, r.startedAt.HasPlainYear
  starts : (log.map (·.startedAt)).Nodup
  length : log.length ≤ signedLimit

end ReportLog

namespace ReportStore

def memory : ReportStore ReportMap where
  empty := .empty
  append := ReportMap.append
  get m id := .ok (m.get id)
  recent m limit := .ok (m.recent limit)

def table : ReportStore ReportTable where
  empty := .empty
  append := ReportTable.append
  get := ReportTable.get
  recent := ReportTable.recent

def log : ReportStore ReportLog where
  empty := []
  append := ReportLog.append
  get l id := .ok (l.get id)
  recent l limit := .ok (l.recent limit)

/-- The store keeps a log in a form of its own, and answers from it. -/
structure Refines {σ : Type} (store : ReportStore σ) (form : ReportLog → σ) : Prop where
  empty : store.empty = form []
  append : ∀ l r, store.append (form l) r = (l.append r).map form
  get : ∀ l id, l.Regular → store.get (form l) id = .ok (l.get id)
  recent : ∀ l limit, l.Regular → store.recent (form l) limit = .ok (l.recent limit)

end ReportStore

/-! ## 2. Logs -/

namespace ReportLog

variable {l l' : ReportLog}

/-- The report of a session, if no two have one session. -/
theorem get_eq_some_iff (hids : (l.map (·.id)).Nodup) {id : Uuid} {r : Report} :
    l.get id = some r ↔ r ∈ l ∧ r.id = id := by
  constructor
  · intro h
    exact ⟨List.mem_of_find?_eq_some h, by simpa using List.find?_some h⟩
  · rintro ⟨hr, rfl⟩
    obtain ⟨r', hr'⟩ : ∃ r', l.get r.id = some r' :=
      Option.isSome_iff_exists.1 (List.find?_isSome.2 ⟨r, hr, by simp⟩)
    have hid : r'.id = r.id := by simpa using List.find?_some hr'
    rw [hr', List.inj_on_of_nodup_map hids (List.mem_of_find?_eq_some hr') hr hid]

theorem byStart_perm (l : ReportLog) : l.byStart.Perm l := List.mergeSort_perm l _

theorem pairwise_byStart (l : ReportLog) :
    l.byStart.Pairwise fun a b => b.startedAt ≤ a.startedAt := by
  have hsorted : l.byStart.Pairwise fun a b => decide (b.startedAt ≤ a.startedAt) = true := by
    refine List.pairwise_mergeSort (fun _ _ _ hab hbc => ?_) (fun a b => ?_) l
    · rw [decide_eq_true_eq] at *
      exact Instant.le_trans hbc hab
    · simp only [Bool.or_eq_true, decide_eq_true_eq, Instant.le_def]
      omega
  exact hsorted.imp of_decide_eq_true

/-- If no two reports started together, there is only one order. -/
theorem byStart_eq_of_perm (hperm : l'.Perm l) (hstarts : (l.map (·.startedAt)).Nodup) :
    l'.byStart = l.byStart := by
  have hsame : l'.byStart.Perm l.byStart :=
    (byStart_perm l').trans (hperm.trans (byStart_perm l).symm)
  -- two sorted lists of the same reports differ only where reports compare alike, and none do
  refine hsame.eq_of_pairwise (fun a b ha hb hab hba => ?_) (pairwise_byStart l')
    (pairwise_byStart l)
  have ha : a ∈ l := hperm.subset ((byStart_perm l').subset ha)
  have hb : b ∈ l := (byStart_perm l).subset hb
  exact List.inj_on_of_nodup_map hstarts ha hb (Instant.le_antisymm hba hab)

end ReportLog

/-! ## 3. The map -/

namespace ReportMap

/-- The map of a log. -/
def ofLog (l : ReportLog) : ReportMap := l.foldr (fun r m => m.insert r.id r) .empty

variable {l : ReportLog}

theorem get?_ofLog (l : ReportLog) (id : Uuid) : (ofLog l).get? id = l.get id := by
  induction l with
  | nil => rfl
  | cons r rest ih =>
    show ((ofLog rest).insert r.id r).get? id = _
    rw [SortedMap.get?_insert, ih, ReportLog.get, ReportLog.get, List.find?_cons]
    by_cases h : r.id = id
    · subst h
      simp
    · rw [if_neg fun hid => h (Std.LawfulEqOrd.eq_of_compare hid).symm, beq_false_of_ne h]

theorem append_ofLog (l : ReportLog) (r : Report) :
    (ofLog l).append r = (l.append r).map ofLog := by
  have hcontains : (ofLog l).contains r.id = l.any (·.id == r.id) := by
    rw [SortedMap.contains, get?_ofLog, ReportLog.get, List.isSome_find?]
  unfold ReportMap.append ReportLog.append
  rw [hcontains]
  cases r.ensureFinal with
  | error e => rfl
  | ok _ =>
    cases l.any (·.id == r.id) with
    | true => rfl
    | false => rfl

/-- The map lists the log in another order. -/
theorem values_ofLog_perm (hids : (l.map (·.id)).Nodup) : (ofLog l).values.Perm l := by
  have hget : ∀ {id r}, (ofLog l).get? id = some r ↔ r ∈ l ∧ r.id = id := by
    intro id r
    rw [get?_ofLog, ReportLog.get_eq_some_iff hids]
  have hkey : ∀ e ∈ (ofLog l).entries, e.2.id = e.1 := fun e he =>
    (hget.1 (SortedMap.mem_entries_iff.1 he)).2
  have hnodup : (ofLog l).values.Nodup := by
    have hkeys := (ofLog l).nodup_keys
    refine List.pairwise_map.2 ((List.pairwise_map.1 hkeys).imp_of_mem ?_)
    intro a b ha hb hne heq
    exact hne (by rw [← hkey a ha, ← hkey b hb, heq])
  rw [List.perm_ext_iff_of_nodup hnodup (List.Nodup.of_map _ hids)]
  intro r
  simp [SortedMap.mem_values_iff, hget]

end ReportMap

open ReportStore in
/-- **The map is a log.** -/
theorem refines_memory : memory.Refines ReportMap.ofLog where
  empty := rfl
  append := ReportMap.append_ofLog
  get l id _ := congrArg Except.ok (ReportMap.get?_ofLog l id)
  recent l limit hl := by
    have hsame := ReportLog.byStart_eq_of_perm (ReportMap.values_ofLog_perm hl.ids) hl.starts
    exact congrArg (fun sorted => Except.ok (sorted.take limit)) hsame

/-! ## 4. The table -/

/-- A row is read back as the report it was made of. -/
theorem ReportRow.toReport_ofReport {r : Report} (h : r.Storable) :
    (ReportRow.ofReport r).toReport = .ok r := by
  rw [toReport, ofReport, Report.ofText?_payload h]

namespace ReportTable

/-- The table of a log. -/
def ofLog (l : ReportLog) : ReportTable := ⟨l.map .ofReport⟩

variable {l : ReportLog}

theorem sessionId_ofReport_beq (r : Report) (id : Uuid) :
    ((ReportRow.ofReport r).sessionId == id.toText) = (r.id == id) := by
  rw [Bool.eq_iff_iff, beq_iff_eq, beq_iff_eq]
  exact ⟨Uuid.toText_inj, congrArg Uuid.toText⟩

theorem append_ofLog (l : ReportLog) (r : Report) :
    (ofLog l).append r = (l.append r).map ofLog := by
  have hany : (ofLog l).rows.any (·.sessionId == (ReportRow.ofReport r).sessionId) =
      l.any (·.id == r.id) := by
    rw [ofLog, List.any_map]
    exact congrArg l.any (funext fun r' => sessionId_ofReport_beq r' r.id)
  unfold ReportTable.append ReportLog.append
  simp only [hany]
  cases r.ensureFinal with
  | error e => rfl
  | ok _ =>
    cases l.any (·.id == r.id) with
    | true => rfl
    | false => rfl

theorem get_ofLog (h : l.Regular) (id : Uuid) : (ofLog l).get id = .ok (l.get id) := by
  have hfind : (ofLog l).rows.find? (·.sessionId == id.toText) =
      (l.get id).map .ofReport := by
    rw [ofLog, List.find?_map, ReportLog.get]
    congr 2
    exact funext fun r => sessionId_ofReport_beq r id
  rw [ReportTable.get, hfind]
  cases hget : l.get id with
  | none => rfl
  | some r =>
    rw [Option.map_some, Option.mapM_some,
      ReportRow.toReport_ofReport (h.storable r (List.mem_of_find?_eq_some hget))]
    rfl

/-- Rows that are sorted by the texts of the starts are sorted by the starts. -/
theorem mergeSort_rows (h : ∀ r ∈ l, r.startedAt.HasPlainYear) :
    ((ofLog l).rows.mergeSort fun a b => b.startedAt ≤ a.startedAt) =
      l.byStart.map .ofReport := by
  refine (List.map_mergeSort fun a ha b hb => ?_).symm
  rw [Bool.eq_iff_iff, decide_eq_true_eq, decide_eq_true_eq]
  exact (Instant.toOffsetText_le_iff (h b hb) (h a ha)).symm

theorem recent_ofLog (h : l.Regular) (limit : Nat) :
    (ofLog l).recent limit = .ok (l.recent limit) := by
  have hrows : ((ofLog l).rows.mergeSort fun a b => b.startedAt ≤ a.startedAt).length ≤
      signedLimit := by
    rw [List.length_mergeSort, ofLog, List.length_map]
    exact h.length
  have hread : ∀ r ∈ l.recent limit, (ReportRow.ofReport r).toReport = .ok (id r) := by
    intro r hr
    rw [ReportRow.toReport_ofReport, id]
    exact h.storable r ((ReportLog.byStart_perm l).subset (List.mem_of_mem_take hr))
  unfold ReportTable.recent
  dsimp only
  rw [take_signedWord limit hrows, mergeSort_rows h.year, ← List.map_take, List.mapM_map,
    Function.comp_def, ← ReportLog.recent, mapM_eq_ok hread, List.map_id]

end ReportTable

open ReportStore in
/-- **The table is a log**, of reports that it can give back. -/
theorem refines_table : table.Refines ReportTable.ofLog where
  empty := rfl
  append := ReportTable.append_ofLog
  get _ id hl := ReportTable.get_ofLog hl id
  recent l limit hl := by
    simp only [table]
    exact ReportTable.recent_ofLog hl limit

end Reconciliation
