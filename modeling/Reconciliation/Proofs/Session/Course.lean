/-
# The course of a session

The tasks of a session are the read of the ledger and one collection from each exchange.  They
end in any order, each at most once, and a session that is not interrupted waits for all of them.
A report depends on little of that: on the snapshots with their times, and on what the read gave.

* `SessionPlan.Course`: in a plan that can happen, every completion is the end of a task of its
  own;
* `SessionPlan.Course.exchanges_nodup`, `SessionPlan.Course.readings_length_le`: so no exchange
  and no ledger is heard of twice;
* `SessionPlan.Course.exchanges_perm`, `SessionPlan.Course.exists_reading`: and without an
  interruption none is missed;
* `ExchangeSnapshot.taken`: the snapshots as a session takes them, none earlier than those before.
-/
import Mathlib.Data.List.Nodup
import Mathlib.Data.List.Perm.Basic
import Reconciliation.Proofs.Compare.Findings
import Reconciliation.Session.Run

namespace Reconciliation

/-! ## 1. What completions tell -/

namespace Completion

variable {cs cs' : List Completion} {s : ExchangeSnapshot} {c : Completion}

def snapshot? : Completion → Option ExchangeSnapshot
  | .collected s => some s
  | _ => none

/-- Whether it is the end of the read of the ledger. -/
def isReading : Completion → Bool
  | .ledgerRead _ | .ledgerFailed _ => true
  | .collected _ | .lost => false

/-- The snapshots that were collected, in order. -/
def snapshots (cs : List Completion) : List ExchangeSnapshot := cs.filterMap snapshot?

/-- The ends of the read of the ledger; there is one at most. -/
def readings (cs : List Completion) : List Completion := cs.filter isReading

theorem mem_snapshots : s ∈ snapshots cs ↔ .collected s ∈ cs := by
  simp only [snapshots, List.mem_filterMap]
  constructor
  · rintro ⟨c, hc, hs⟩
    cases c with
    | collected s' =>
      cases hs
      exact hc
    | _ => cases hs
  · intro hs
    exact ⟨.collected s, hs, rfl⟩

theorem mem_readings : c ∈ readings cs ↔ c ∈ cs ∧ c.isReading = true := List.mem_filter

theorem snapshots_append : snapshots (cs ++ cs') = snapshots cs ++ snapshots cs' :=
  List.filterMap_append

theorem readings_append : readings (cs ++ cs') = readings cs ++ readings cs' :=
  List.filter_append ..

/-- What is not a collection leaves the snapshots as they are. -/
theorem snapshots_concat_of_none (h : c.snapshot? = none) :
    snapshots (cs ++ [c]) = snapshots cs := by
  rw [snapshots_append, snapshots, snapshots, List.filterMap_cons_none h, List.filterMap_nil,
    List.append_nil]

/-- What is not a read leaves the ends of the read as they are. -/
theorem readings_concat_of_not_reading (h : c.isReading = false) :
    readings (cs ++ [c]) = readings cs := by
  rw [readings_append, readings, readings, List.filter_cons_of_neg (Bool.eq_false_iff.1 h),
    List.filter_nil, List.append_nil]

/-- Where the read ends once at most, an end of it is the only one. -/
theorem readings_eq_of_mem (hone : (readings cs).length ≤ 1) (hc : c ∈ cs)
    (hreading : c.isReading = true) : readings cs = [c] := by
  obtain ⟨c', hc'⟩ := List.length_eq_one_iff.1
    (Nat.le_antisymm hone (List.length_pos_of_mem (mem_readings.2 ⟨hc, hreading⟩)))
  have hmem : c ∈ readings cs := mem_readings.2 ⟨hc, hreading⟩
  rw [hc', List.mem_singleton] at hmem
  rw [hc', hmem]

section Concat

variable (hone : (readings (cs ++ [c])).length ≤ 1)
include hone

theorem readings_length_le_of_concat : (readings cs).length ≤ 1 := by
  rw [readings_append, List.length_append] at hone
  omega

/-- No other end of the read comes before the last. -/
theorem readings_eq_nil_of_concat (hc : c.isReading = true) : readings cs = [] := by
  have hlast : readings [c] = [c] := by
    rw [readings, List.filter_cons_of_pos hc, List.filter_nil]
  rw [readings_append, hlast, List.length_append, List.length_singleton] at hone
  exact List.eq_nil_of_length_eq_zero (by omega)

end Concat

end Completion

namespace LedgerView

/-- What is known of the ledger after the ends of its read. -/
def ofReadings : List Completion → LedgerView
  | .ledgerRead ledger :: _ => .read ledger
  | .ledgerFailed _ :: _ => .unavailable
  | _ => .awaited

theorem mem_of_ofReadings {cs : List Completion} {ledger : LedgerSnapshot}
    (h : ofReadings cs = .read ledger) : .ledgerRead ledger ∈ cs := by
  unfold ofReadings at h
  split at h
  · cases h
    exact List.mem_cons_self
  · cases h
  · cases h

/-- Compares a snapshot, if there is a ledger to compare with. -/
def compare (t : Tolerances) : LedgerView → ExchangeSnapshot →
    Except Decimal.Overflow (List Discrepancy)
  | .read ledger, s => s.compareWithLedger t ledger
  | .unavailable, s => return s.connectivity
  | .awaited, s => return s.connectivity

end LedgerView

/-! ## 2. Times -/

namespace ExchangeSnapshot

variable {l : List ExchangeSnapshot} {start : Instant}

/-- The snapshot, with its time taken forward to an instant if it is earlier. -/
def notBefore (s : ExchangeSnapshot) (time : Instant) : ExchangeSnapshot :=
  s.capturedOn (s.capturedAt.max time)

/-- The last of the start and the times of snapshots. -/
def latest (start : Instant) (l : List ExchangeSnapshot) : Instant :=
  l.foldl (fun time s => s.capturedAt.max time) start

/-- The snapshots as a session takes them: none earlier than its start or than one before. -/
def taken (start : Instant) (l : List ExchangeSnapshot) : List ExchangeSnapshot :=
  l.mapIdx fun i s => s.notBefore (latest start (l.take i))

theorem latest_concat (s : ExchangeSnapshot) :
    latest start (l ++ [s]) = (s.notBefore (latest start l)).capturedAt := by
  rw [latest, List.foldl_append]
  rfl

theorem taken_concat (s : ExchangeSnapshot) :
    taken start (l ++ [s]) = taken start l ++ [s.notBefore (latest start l)] := by
  rw [taken, List.mapIdx_concat, List.take_left]
  congr 1
  refine List.mapIdx_eq_mapIdx_iff.2 fun i hi => ?_
  rw [List.take_append_of_le_length (Nat.le_of_lt hi)]

theorem taken_cons (s : ExchangeSnapshot) :
    taken start (s :: l) =
      s.notBefore start :: taken (s.notBefore start).capturedAt l := by
  rw [taken, List.mapIdx_cons]
  rfl

theorem recaptured_taken : List.Forall₂ Recaptured l (taken start l) := by
  induction l using List.reverseRecOn with
  | nil => exact .nil
  | append_singleton l s ih =>
    rw [taken_concat]
    exact List.rel_append ih (.cons (.of_capturedOn _) .nil)

theorem map_exchange_taken : (taken start l).map (·.exchange) = l.map (·.exchange) :=
  map_exchange_recaptured recaptured_taken

theorem exists_of_mem_taken {s : ExchangeSnapshot} (hs : s ∈ taken start l) :
    ∃ s' ∈ l, Recaptured s' s := by
  simp only [taken, List.mem_mapIdx] at hs
  obtain ⟨i, hi, rfl⟩ := hs
  exact ⟨l[i], List.getElem_mem hi, .of_capturedOn _⟩

theorem exists_mem_taken {s : ExchangeSnapshot} (hs : s ∈ l) :
    ∃ s' ∈ taken start l, Recaptured s s' := by
  obtain ⟨i, hi, rfl⟩ := List.getElem_of_mem hs
  exact ⟨_, List.mem_mapIdx.2 ⟨i, hi, rfl⟩, .of_capturedOn _⟩

end ExchangeSnapshot

/-! ## 3. Tasks -/

/-- A task of a session. -/
inductive SessionTask
  | ledger
  | collection (exchange : ExchangeId)
  deriving DecidableEq

namespace SessionTask

/-- What a task can end with. -/
inductive EndsWith : SessionTask → Completion → Prop
  | collected (s : ExchangeSnapshot) : EndsWith (.collection s.exchange) (.collected s)
  | ledgerRead (ledger : LedgerSnapshot) : EndsWith .ledger (.ledgerRead ledger)
  | ledgerFailed (error : ReconciliationError) : EndsWith .ledger (.ledgerFailed error)
  | lost (task : SessionTask) : EndsWith task .lost

variable {order : List SessionTask} {cs : List Completion} {task : SessionTask}

/-- A task whose end is known ends with something. -/
theorem exists_endsWith (h : List.Forall₂ EndsWith order cs) (htask : task ∈ order) :
    ∃ c ∈ cs, task.EndsWith c := by
  induction h with
  | nil => cases htask
  | @cons _ c _ _ hc _ ih =>
    rcases List.mem_cons.1 htask with rfl | htask
    · exact ⟨c, List.mem_cons_self, hc⟩
    · obtain ⟨c', hc', hends⟩ := ih htask
      exact ⟨c', List.mem_cons_of_mem _ hc', hends⟩

/-- The snapshots come from collections of their own. -/
theorem collections_sublist (h : List.Forall₂ EndsWith order cs) :
    ((Completion.snapshots cs).map fun s => collection s.exchange).Sublist order := by
  induction h with
  | nil => exact .slnil
  | cons hc _ ih =>
    cases hc with
    | collected s => exact ih.cons_cons _
    | ledgerRead ledger => exact ih.cons _
    | ledgerFailed error => exact ih.cons _
    | lost task => exact ih.cons _

/-- So do the ends of the read of the ledger. -/
theorem readings_sublist (h : List.Forall₂ EndsWith order cs) :
    ((Completion.readings cs).map fun _ => ledger).Sublist order := by
  induction h with
  | nil => exact .slnil
  | cons hc _ ih =>
    cases hc with
    | collected s => exact ih.cons _
    | ledgerRead ledger => exact ih.cons_cons _
    | ledgerFailed error => exact ih.cons_cons _
    | lost task => exact ih.cons _

end SessionTask

/-! ## 4. Plans that can happen -/

namespace SessionPlan

variable {p : SessionPlan}

def tasks (p : SessionPlan) : List SessionTask := .ledger :: p.exchanges.map .collection

/-- `p.Course`: every completion is the end of another task, and without an interruption every
task ends.  There are exchanges, and none is configured twice. -/
structure Course (p : SessionPlan) : Prop where
  configured : p.exchanges ≠ []
  distinct : p.exchanges.Nodup
  ended : ∃ order : List SessionTask, order.Nodup ∧ order ⊆ p.tasks ∧
    List.Forall₂ SessionTask.EndsWith order p.completions ∧
    (p.interruption = none → p.tasks ⊆ order)

def snapshots (p : SessionPlan) : List ExchangeSnapshot := Completion.snapshots p.completions

/-- What the session knows of the ledger in the end. -/
def view (p : SessionPlan) : LedgerView := .ofReadings (Completion.readings p.completions)

/-- The snapshots as the session takes them. -/
def taken (p : SessionPlan) : List ExchangeSnapshot :=
  ExchangeSnapshot.taken p.startTime p.snapshots

namespace Course

/-- No exchange gives two snapshots. -/
theorem exchanges_nodup (h : p.Course) : (p.snapshots.map (·.exchange)).Nodup := by
  obtain ⟨order, hnodup, -, hends, -⟩ := h.ended
  have hcollections := hnodup.sublist (SessionTask.collections_sublist hends)
  rw [← Function.comp_def SessionTask.collection, ← List.map_map] at hcollections
  exact hcollections.of_map _

/-- No other exchange gives one. -/
theorem exchanges_subset (h : p.Course) : p.snapshots.map (·.exchange) ⊆ p.exchanges := by
  obtain ⟨order, -, hsubset, hends, -⟩ := h.ended
  intro e he
  obtain ⟨s, hs, rfl⟩ := List.mem_map.1 he
  have hmem : SessionTask.collection s.exchange ∈ order :=
    (SessionTask.collections_sublist hends).subset (List.mem_map_of_mem hs)
  have htask : SessionTask.collection s.exchange ∈ p.tasks := hsubset hmem
  rw [tasks, List.mem_cons, List.mem_map] at htask
  rcases htask with htask | ⟨e, he, heq⟩
  · cases htask
  · cases heq
    exact he

/-- The read of the ledger ends once at most. -/
theorem readings_length_le (h : p.Course) : (Completion.readings p.completions).length ≤ 1 := by
  obtain ⟨order, hnodup, -, hends, -⟩ := h.ended
  have hreadings := hnodup.sublist (SessionTask.readings_sublist hends)
  rw [List.map_const'] at hreadings
  exact List.nodup_replicate.1 hreadings

theorem readings_eq (h : p.Course) {c : Completion} (hc : c ∈ p.completions)
    (hreading : c.isReading = true) : Completion.readings p.completions = [c] :=
  Completion.readings_eq_of_mem h.readings_length_le hc hreading

/-- What is known of the ledger is what the end of its read told. -/
theorem view_eq (h : p.Course) {c : Completion} (hc : c ∈ p.completions)
    (hreading : c.isReading = true) : p.view = .ofReadings [c] := by
  rw [view, h.readings_eq hc hreading]

section Uninterrupted

variable (hinterruption : p.interruption = none) (hlost : .lost ∉ p.completions)
include hinterruption hlost

/-- Without an interruption every exchange gives a snapshot, if no task breaks off. -/
theorem exchanges_perm (h : p.Course) : (p.snapshots.map (·.exchange)).Perm p.exchanges := by
  refine (List.perm_ext_iff_of_nodup h.exchanges_nodup h.distinct).2 fun e => ?_
  refine ⟨fun he => h.exchanges_subset he, fun he => ?_⟩
  obtain ⟨order, -, -, hends, hall⟩ := h.ended
  have htask : SessionTask.collection e ∈ p.tasks :=
    List.mem_cons_of_mem _ (List.mem_map_of_mem he)
  obtain ⟨c, hc, hends⟩ := SessionTask.exists_endsWith hends (hall hinterruption htask)
  cases hends with
  | collected s => exact List.mem_map_of_mem (Completion.mem_snapshots.2 hc)
  | lost task => exact absurd hc hlost

/-- So does the read of the ledger end. -/
theorem exists_reading (h : p.Course) : ∃ c, Completion.readings p.completions = [c] := by
  obtain ⟨order, -, -, hends, hall⟩ := h.ended
  obtain ⟨c, hc, hends⟩ :=
    SessionTask.exists_endsWith hends (hall hinterruption List.mem_cons_self)
  refine ⟨c, h.readings_eq hc ?_⟩
  cases hends with
  | ledgerRead ledger => rfl
  | ledgerFailed error => rfl
  | lost task => exact absurd hc hlost

end Uninterrupted

/-- The tasks may end in any order. -/
theorem reorder (h : p.Course) {cs : List Completion} (hcs : p.completions.Perm cs) :
    { p with completions := cs }.Course := by
  obtain ⟨order, hnodup, hsubset, hends, hall⟩ := h.ended
  have hends : List.Forall₂ (flip SessionTask.EndsWith) p.completions order := hends.flip
  obtain ⟨order', hends', horder⟩ := List.perm_comp_forall₂ hcs.symm hends
  exact ⟨h.configured, h.distinct, order', horder.nodup_iff.2 hnodup,
    fun task htask => hsubset (horder.subset htask), hends'.flip,
    fun hi task htask => horder.symm.subset (hall hi htask)⟩

end Course

end SessionPlan

end Reconciliation
