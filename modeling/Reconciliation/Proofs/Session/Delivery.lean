/-
# What consumers hear of a report

The consumers of a report may do anything with it, and may fail.  What they are asked for does not
depend on that: the store is asked once to take the report, then each sink in turn is told of it,
and right after that of its critical discrepancies if there are any.

To say so, consumers are watched: every call to them is put on record before it is made.

* `watch`, `run_watch`: a call on record;
* `ReportSink.run_watched`: the calls to one sink;
* `Report.run_watched`: the calls of a delivery, in any monad;
* `Report.reaches_everyone`: the calls and the report that is returned.
-/
import Reconciliation.Session.Delivery

namespace Reconciliation

/-! ## 1. Calls on record -/

/-- A call to a consumer.  Sinks go by their number, counted from zero. -/
inductive DeliveryCall
  | append (r : Report)
  | publish (sink : Nat) (r : Report)
  | escalate (sink : Nat) (r : Report) (critical : List Discrepancy)
  deriving DecidableEq

section Watch

variable {m : Type → Type} [Monad m] {α : Type}

/-- Puts a call on record and makes it. -/
def watch (call : DeliveryCall) (answer : m α) : StateT (List DeliveryCall) m α := do
  modify (· ++ [call])
  answer

def watchStore (append : Report → m StoreOutcome) (r : Report) :
    StateT (List DeliveryCall) m StoreOutcome :=
  watch (.append r) (append r)

def ReportSink.watched (i : Nat) (sink : ReportSink m) :
    ReportSink (StateT (List DeliveryCall) m) where
  publish r := watch (.publish i r) (sink.publish r)
  escalate r critical := watch (.escalate i r critical) (sink.escalate r critical)

/-- The sinks, watched under numbers from `n` on. -/
def watchSinks (n : Nat) (sinks : List (ReportSink m)) :
    List (ReportSink (StateT (List DeliveryCall) m)) :=
  (sinks.zipIdx n).map fun p => p.1.watched p.2

/-- The calls to a sink. -/
def Report.callsTo (r : Report) (i : Nat) : List DeliveryCall :=
  .publish i r ::
    if r.criticalDiscrepancies.isEmpty then [] else [.escalate i r r.criticalDiscrepancies]

variable [LawfulMonad m] {record : List DeliveryCall} {r : Report}

theorem run_watch (call : DeliveryCall) (answer : m α) :
    (watch call answer).run record = (fun a => (a, record ++ [call])) <$> answer := by
  simp [watch]

/-! ## 2. The calls of a delivery -/

theorem ReportSink.run_watched (sink : ReportSink m) (i : Nat) :
    ((sink.watched i).deliver r).run record =
      (fun _ => ((), record ++ r.callsTo i)) <$> sink.deliver r := by
  simp only [deliver, watched, Report.callsTo, StateT.run_bind, run_watch, map_bind, bind_map_left]
  refine bind_congr fun _ => ?_
  cases r.criticalDiscrepancies.isEmpty with
  | true => simp
  | false => simp [run_watch]

theorem Report.run_watchSinks (r : Report) (record : List DeliveryCall)
    (sinks : List (ReportSink m)) (n : Nat) :
    ((watchSinks n sinks).forM (·.deliver r)).run record =
      (fun _ => ((), record ++ (List.range' n sinks.length).flatMap r.callsTo)) <$>
        sinks.forM (·.deliver r) := by
  induction sinks generalizing n record with
  | nil => simp [watchSinks]
  | cons sink rest ih =>
    have hrest : watchSinks n (sink :: rest) = sink.watched n :: watchSinks (n + 1) rest := by
      rw [watchSinks, List.zipIdx_cons]
      rfl
    rw [hrest]
    simp only [List.forM_eq_forM, List.forM_cons] at ih ⊢
    rw [StateT.run_bind, ReportSink.run_watched]
    simp [ih, List.range'_succ]

/-- **The calls of a delivery do not depend on the answers**, in any monad. -/
theorem Report.run_watched (store : Option (Report → m StoreOutcome))
    (sinks : List (ReportSink m)) :
    (r.deliver (store.map watchStore) (watchSinks 0 sinks)).run record =
      (fun _ => ((), record ++ ((store.toList.map fun _ => .append r) ++
        (List.range sinks.length).flatMap r.callsTo))) <$> r.deliver store sinks := by
  have hsinks := r.run_watchSinks record sinks 0
  cases store with
  | none =>
    rw [← List.range_eq_range'] at hsinks
    simpa [deliver] using hsinks
  | some append =>
    have hstored := r.run_watchSinks (record ++ [.append r]) sinks 0
    rw [← List.range_eq_range'] at hstored
    simp only [deliver, Option.map_some, StateT.run_bind, watchStore, run_watch, bind_map_left,
      map_bind]
    refine bind_congr fun _ => ?_
    simpa using hstored

end Watch

/-! ## 3. Consumers of any kind -/

namespace Report

/-- A sink hears of critical discrepancies if there are any, and then of all of them. -/
theorem callsTo_eq (r : Report) (i : Nat) : r.callsTo i =
    .publish i r :: if ∃ d ∈ r.discrepancies, d.severity = .critical then
      [.escalate i r (r.discrepancies.filter (·.severity = .critical))] else [] := by
  have hcritical : r.criticalDiscrepancies = r.discrepancies.filter (·.severity = .critical) := rfl
  have hsome : r.criticalDiscrepancies.isEmpty = false ↔
      ∃ d ∈ r.discrepancies, d.severity = .critical := by
    simp [hcritical]
  rw [callsTo, ← hcritical]
  congr 1
  cases hempty : r.criticalDiscrepancies.isEmpty with
  | true =>
    rw [if_pos rfl, if_neg]
    intro hd
    rw [hsome.2 hd] at hempty
    cases hempty
  | false => rw [if_neg Bool.false_ne_true, if_pos (hsome.1 hempty)]

/-- **A report reaches all of its consumers, and the caller.**  The consumers may do anything in a
world that they share, and answer what they like.  The store is asked once, if there is one, and
first.  Then each sink in turn is told of the report once; and if the report has a critical
discrepancy, but only then, it is told once right after that of the critical ones, in report order.
What is returned is the report, and the world is left as the consumers make it. -/
theorem reaches_everyone {σ : Type} (store : Option (Report → StateM σ StoreOutcome))
    (sinks : List (ReportSink (StateM σ))) (r : Report) (world : σ) :
    ((r.issue (store.map watchStore) (watchSinks 0 sinks)).run []).run world =
      ((r, (if store.isSome then [.append r] else []) ++
        (List.range sinks.length).flatMap fun i =>
          .publish i r :: if ∃ d ∈ r.discrepancies, d.severity = .critical then
            [.escalate i r (r.discrepancies.filter (·.severity = .critical))] else []),
        ((r.deliver store sinks).run world).2) := by
  have hstore : (if store.isSome then [DeliveryCall.append r] else []) =
      store.toList.map fun _ => .append r := by
    cases store <;> rfl
  simp only [hstore, ← callsTo_eq]
  rw [issue, StateT.run_bind, run_watched]
  rfl

end Report

end Reconciliation
