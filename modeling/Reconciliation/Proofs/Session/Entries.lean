/-
# Nothing that is recorded gets lost

A session is told of snapshots with what was found in them, of failures, of notes and of the
ledger's version, in any order and as often as one likes.  All that was found is in its
discrepancies, nothing else is, and they are in report order after every step.  Entries on different
exchanges may be made in any order: what is found is sorted, and discrepancies that compare alike
belong to one exchange, so they come from one entry and keep its order.

* `Session.discrepancies_operateAll`: the discrepancies after any operations;
* `Session.tell_comm`: entries on two exchanges may be made in either order;
* `Session.records_everything_in_any_order`: both, for any number of them.
-/
import Reconciliation.Proofs.Session.Bookkeeping

namespace Reconciliation
namespace Session

/-! ## 1. Operations -/

/-- What may be done with a session while it is open. -/
inductive Operation
  | entry (entry : Entry)
  | setLedgerVersion (version : Option Nat)

/-- The discrepancies that an operation hands over. -/
def Operation.found : Operation → List Discrepancy
  | .entry (.exchange _ found) => found
  | _ => []

def operate (s : Session) : Operation → Session
  | .entry y => s.tell y
  | .setLedgerVersion version => { s with ledgerVersion := version }

def operateAll (s : Session) (operations : List Operation) : Session :=
  operations.foldl operate s

variable {s : Session} {y z : Entry}

/-- One operation sorts what it hands over in among the others. -/
theorem discrepancies_operate (hs : Discrepancy.sort s.discrepancies = s.discrepancies)
    (operation : Operation) : (s.operate operation).discrepancies =
      Discrepancy.sort (s.discrepancies ++ operation.found) := by
  have hnone : s.discrepancies = Discrepancy.sort (s.discrepancies ++ []) := by
    rw [List.append_nil, hs]
  cases operation with
  | entry y =>
    cases y with
    | exchange x found => exact discrepancies_recordExchange hs x found
    | failure e => exact hnone
    | note text => exact hnone
    | cancellation =>
      show s.markCancelled.discrepancies = _
      unfold markCancelled
      split <;> exact hnone
  | setLedgerVersion version => exact hnone

/-- The discrepancies after any operations. -/
theorem discrepancies_operateAll (hs : Discrepancy.sort s.discrepancies = s.discrepancies)
    (operations : List Operation) : (s.operateAll operations).discrepancies =
      Discrepancy.sort (s.discrepancies ++ operations.flatMap Operation.found) := by
  induction operations generalizing s with
  | nil => rw [List.flatMap_nil, List.append_nil, hs]; rfl
  | cons operation rest ih =>
    have hstep := discrepancies_operate hs operation
    have hsorted : Discrepancy.sort (s.operate operation).discrepancies =
        (s.operate operation).discrepancies := by
      rw [hstep]
      exact Discrepancy.sort_sort _
    show ((s.operate operation).operateAll rest).discrepancies = _
    rw [ih hsorted, hstep, Discrepancy.sort_append_sort, List.flatMap_cons, List.append_assoc]

/-! ## 2. Entries on different exchanges -/

/-- The exchange that an entry is on. -/
def Entry.subject? : Entry → Option ExchangeId
  | .exchange x _ => some x.exchange
  | .failure e => some e
  | _ => none

/-- What was found is about the exchange that the entry is on. -/
def Entry.KeepsToSubject (y : Entry) : Prop :=
  ∀ d ∈ (Operation.entry y).found, y.subject? = some d.exchange

/-- A snapshot may be recorded before the failure of another exchange, or after it. -/
theorem recordExchange_recordFailure {x : ExchangeSnapshot} {m : List Discrepancy} {e : ExchangeId}
    (hne : x.exchange ≠ e) :
    (s.recordExchange x m).recordFailure e = (s.recordFailure e).recordExchange x m := by
  have houtcomes : ((s.recordExchange x m).recordFailure e).outcomes =
      ((s.recordFailure e).recordExchange x m).outcomes := SortedMap.insert_comm _ _ _ hne
  have hchecked : ((s.recordExchange x m).recordFailure e).checked =
      ((s.recordFailure e).recordExchange x m).checked := by
    simp only [recordExchange, recordFailure]
    split
    · rfl
    · exact SortedMap.put_comm s.checked (some ()) none hne
  exact Session.mk.injEq .. ▸ ⟨rfl, rfl, rfl, rfl, hchecked, houtcomes, rfl, rfl, rfl, rfl⟩

theorem recordFailure_comm {e e' : ExchangeId} (hne : e ≠ e') :
    (s.recordFailure e).recordFailure e' = (s.recordFailure e').recordFailure e := by
  have houtcomes := SortedMap.insert_comm s.outcomes ExchangeOutcome.failed .failed hne
  have hchecked := SortedMap.put_comm s.checked none none hne
  exact Session.mk.injEq .. ▸ ⟨rfl, rfl, rfl, rfl, hchecked, houtcomes, rfl, rfl, rfl, rfl⟩

/-- **Entries on two exchanges may be made in either order.** -/
theorem tell_comm {e e' : ExchangeId} (hy : y.subject? = some e) (hz : z.subject? = some e')
    (hne : e ≠ e') (hyc : y.KeepsToSubject) (hzc : z.KeepsToSubject) :
    (s.tell y).tell z = (s.tell z).tell y := by
  cases y with
  | exchange x m =>
    obtain rfl := Option.some.inj hy
    cases z with
    | exchange x' m' =>
      obtain rfl := Option.some.inj hz
      refine recordExchange_comm hne fun a ha b hb => ?_
      rw [← Option.some.inj (hyc a ha), ← Option.some.inj (hzc b hb)]
      exact hne
    | failure e' =>
      obtain rfl := Option.some.inj hz
      exact recordExchange_recordFailure hne
    | note text => cases hz
    | cancellation => cases hz
  | failure e =>
    obtain rfl := Option.some.inj hy
    cases z with
    | exchange x' m' =>
      obtain rfl := Option.some.inj hz
      exact (recordExchange_recordFailure hne.symm).symm
    | failure e' =>
      obtain rfl := Option.some.inj hz
      exact recordFailure_comm hne
    | note text => cases hz
    | cancellation => cases hz
  | note text => cases hy
  | cancellation => cases hy

/-- Each entry is on an exchange, no two are on the same one, and what was found is about it. -/
structure Independent (entries : List Entry) : Prop where
  recorded : ∀ y ∈ entries, y.subject? ≠ none
  distinct : (entries.map Entry.subject?).Nodup
  keeps : ∀ y ∈ entries, y.KeepsToSubject

theorem tellAll_perm {entries entries' : List Entry} (h : Independent entries)
    (hperm : entries.Perm entries') : s.tellAll entries = s.tellAll entries' := by
  refine hperm.foldl_eq' (fun y hy z hz s => ?_) s
  by_cases hyz : y = z
  · subst hyz
    rfl
  · obtain ⟨e, he⟩ := Option.ne_none_iff_exists'.1 (h.recorded y hy)
    obtain ⟨e', he'⟩ := Option.ne_none_iff_exists'.1 (h.recorded z hz)
    refine (tell_comm he he' ?_ (h.keeps y hy) (h.keeps z hz))
    rintro rfl
    exact hyz (List.inj_on_of_nodup_map h.distinct hy hz (he.trans he'.symm))

/-! ## 3. Any number of entries -/

/-- **Recording loses nothing and adds nothing.**  After any operations the discrepancies of a
session are in report order, and they are what the operations handed over.  Entries on different
exchanges lead to one session in any order. -/
theorem records_everything_in_any_order :
    (∀ (id : Uuid) (time : Instant) (operations : List Operation),
      ((start id time).operateAll operations).discrepancies.Pairwise
          (fun a b => (Discrepancy.compareKeys a b).isLE) ∧
        ((start id time).operateAll operations).discrepancies.Perm
          (operations.flatMap Operation.found)) ∧
    ∀ (s : Session) (entries entries' : List Entry), Independent entries →
      entries.Perm entries' → s.tellAll entries = s.tellAll entries' := by
  refine ⟨fun id time operations => ?_, fun s entries entries' => tellAll_perm⟩
  rw [discrepancies_operateAll Discrepancy.sort_nil]
  exact ⟨Discrepancy.pairwise_sort _, Discrepancy.perm_sort _⟩

/-- An exchange with two findings that compare alike, and the failure of another one. -/
theorem records_everything_in_any_order_alike :
    let zeta : ExchangeSnapshot := .unavailable (.of .exchange "zeta") default "down"
    let d : Discrepancy :=
      .new zeta.exchange .connectivity .critical "zeta" none none "down" default
    let entries : List Entry :=
      [.exchange zeta [d, { d with severity := .warning }], .failure (.of .exchange "alpha")]
    Independent entries ∧ entries.Perm entries.reverse ∧
      (start default default).tellAll entries =
        (start default default).tellAll entries.reverse := by
  intro zeta d entries
  have hindependent : Independent entries := by
    refine ⟨?_, by decide, ?_⟩
    · simp [entries, Entry.subject?]
    · have hd : d.exchange = zeta.exchange := Discrepancy.exchange_new ..
      simp [entries, Entry.KeepsToSubject, Operation.found, Entry.subject?, hd]
  have hperm := entries.reverse_perm.symm
  exact ⟨hindependent, hperm, records_everything_in_any_order.2 _ _ _ hindependent hperm⟩

end Session
end Reconciliation
