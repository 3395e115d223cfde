/-
# What a session has recorded

A session records snapshots one after the other, and in the end the exchanges that failed.  What
it has recorded then does not depend on the order, as long as no exchange is recorded twice.

* `Session.recordAll_perm`: snapshots may be recorded in any order;
* `Session.discrepancies_recordAll`: what was found in them, in report order;
* `Session.outcome_recordAll_iff`, `Session.checked_recordAll_iff`: what came of an exchange;
* `Session.outcome_recordFailures`, `Session.checked_recordFailures_iff`: the same after the
  failures;
* `Session.redated_recordAll`: when the snapshots were captured only dates what was found.
-/
import Mathlib.Data.List.Nodup
import Reconciliation.Proofs.Compare.Findings
import Reconciliation.Proofs.SortedMap
import Reconciliation.Session.Basic

namespace Reconciliation
namespace Session

variable {found : ExchangeSnapshot → List Discrepancy} {s : Session}
  {l l' : List ExchangeSnapshot} {e : ExchangeId} {o : ExchangeOutcome}

/-! ## 1. One snapshot -/

/-- Snapshots of two exchanges may be recorded in either order. -/
theorem recordExchange_comm {x y : ExchangeSnapshot} {m n : List Discrepancy}
    (hne : x.exchange ≠ y.exchange) (h : ∀ a ∈ m, ∀ b ∈ n, a.exchange ≠ b.exchange) :
    (s.recordExchange x m).recordExchange y n = (s.recordExchange y n).recordExchange x m := by
  have houtcomes : ((s.recordExchange x m).recordExchange y n).outcomes =
      ((s.recordExchange y n).recordExchange x m).outcomes :=
    SortedMap.insert_comm _ _ _ hne
  have hchecked : ((s.recordExchange x m).recordExchange y n).checked =
      ((s.recordExchange y n).recordExchange x m).checked := by
    simp only [recordExchange]
    by_cases hx : ExchangeOutcome.ofSnapshot x = .failed <;>
      by_cases hy : ExchangeOutcome.ofSnapshot y = .failed <;>
        simp only [hx, hy, if_true, if_false]
    exact SortedMap.insert_comm _ _ _ hne
  have hdiscrepancies : ((s.recordExchange x m).recordExchange y n).discrepancies =
      ((s.recordExchange y n).recordExchange x m).discrepancies := by
    simp only [recordExchange]
    cases hm : m.isEmpty <;> cases hn : n.isEmpty <;>
      simp only [Bool.false_eq_true, if_false, if_true]
    rw [Discrepancy.sort_append_sort, Discrepancy.sort_append_sort]
    exact Discrepancy.sort_append_comm _ h
  exact Session.mk.injEq .. ▸
    ⟨rfl, rfl, rfl, rfl, hchecked, houtcomes, hdiscrepancies, rfl, rfl, rfl⟩

theorem outcome_recordExchange (x : ExchangeSnapshot) (m : List Discrepancy) :
    (s.recordExchange x m).outcomes.get? e =
      if e = x.exchange then some (ExchangeOutcome.ofSnapshot x) else s.outcomes.get? e := by
  simp only [recordExchange, SortedMap.get?_insert, Std.LawfulEqOrd.compare_eq_iff_eq]

theorem checked_recordExchange_iff {x : ExchangeSnapshot} {m : List Discrepancy} :
    e ∈ (s.recordExchange x m).checked.toList ↔
      (e = x.exchange ∧ ExchangeOutcome.ofSnapshot x ≠ .failed) ∨ e ∈ s.checked.toList := by
  simp only [recordExchange]
  split
  · rename_i hfailed
    simp [hfailed]
  · rename_i hfailed
    simp [SortedSet.mem_toList_add, hfailed]

/-- In a session in report order, what is found takes its place. -/
theorem discrepancies_recordExchange (hs : Discrepancy.sort s.discrepancies = s.discrepancies)
    (x : ExchangeSnapshot) (m : List Discrepancy) :
    (s.recordExchange x m).discrepancies = Discrepancy.sort (s.discrepancies ++ m) := by
  simp only [recordExchange]
  split
  · rename_i hm
    rw [List.isEmpty_iff.1 hm, List.append_nil, hs]
  · rfl

/-! ## 2. Several snapshots -/

/-- Records snapshots, with what is found in each. -/
def recordAll (found : ExchangeSnapshot → List Discrepancy) (s : Session)
    (l : List ExchangeSnapshot) : Session :=
  l.foldl (fun s x => s.recordExchange x (found x)) s

@[simp] theorem recordAll_nil : s.recordAll found [] = s := rfl

theorem recordAll_cons (x : ExchangeSnapshot) :
    s.recordAll found (x :: l) = (s.recordExchange x (found x)).recordAll found l := rfl

theorem recordAll_append : s.recordAll found (l ++ l') = (s.recordAll found l).recordAll found l' :=
  List.foldl_append

theorem recordAll_concat (x : ExchangeSnapshot) :
    s.recordAll found (l ++ [x]) = (s.recordAll found l).recordExchange x (found x) :=
  recordAll_append

/-- What a session records leaves what it is told apart from snapshots alone. -/
theorem recordAll_commute {f : Session → Session}
    (hf : ∀ s x m, f (recordExchange s x m) = (f s).recordExchange x m) :
    f (s.recordAll found l) = (f s).recordAll found l := by
  induction l generalizing s with
  | nil => rfl
  | cons x rest ih => rw [recordAll_cons, recordAll_cons, ih, hf]

/-- Recording touches three fields. -/
theorem recordAll_frame : s.recordAll found l =
    { s with
      checked := (s.recordAll found l).checked
      outcomes := (s.recordAll found l).outcomes
      discrepancies := (s.recordAll found l).discrepancies } := by
  induction l generalizing s with
  | nil => rfl
  | cons x rest ih =>
    rw [recordAll_cons]
    exact ih

/-- **Snapshots may be recorded in any order**, if they are of different exchanges and what is
found in them is about those. -/
theorem recordAll_perm (hfound : ∀ x, ∀ d ∈ found x, d.exchange = x.exchange)
    (hl : (l.map (·.exchange)).Nodup) (h : l.Perm l') :
    s.recordAll found l = s.recordAll found l' := by
  refine h.foldl_eq' (fun x hx y hy s => ?_) s
  by_cases hxy : x = y
  · subst hxy
    rfl
  · have hne : x.exchange ≠ y.exchange := fun heq =>
      hxy (List.inj_on_of_nodup_map hl hx hy heq)
    refine recordExchange_comm hne fun a ha b hb => ?_
    rw [hfound x a ha, hfound y b hb]
    exact hne

/-- What was found in the snapshots, in report order. -/
theorem discrepancies_recordAll (hs : Discrepancy.sort s.discrepancies = s.discrepancies) :
    (s.recordAll found l).discrepancies =
      Discrepancy.sort (s.discrepancies ++ l.flatMap found) := by
  induction l generalizing s with
  | nil => rw [recordAll_nil, List.flatMap_nil, List.append_nil, hs]
  | cons x rest ih =>
    have hx := discrepancies_recordExchange hs x (found x)
    have hsorted : Discrepancy.sort (s.recordExchange x (found x)).discrepancies =
        (s.recordExchange x (found x)).discrepancies := by
      rw [hx, Discrepancy.sort_sort]
    rw [recordAll_cons, ih hsorted, hx, Discrepancy.sort_append_sort, List.flatMap_cons,
      List.append_assoc]

/-- What was found about the exchange of a snapshot was found in that snapshot. -/
theorem filter_exchange_flatMap (hfound : ∀ x, ∀ d ∈ found x, d.exchange = x.exchange)
    (hl : (l.map (·.exchange)).Nodup) {x : ExchangeSnapshot} (hx : x ∈ l) :
    (l.flatMap found).filter (·.exchange = x.exchange) = found x := by
  have hself : ∀ y, y.exchange = x.exchange →
      (found y).filter (·.exchange = x.exchange) = found y := fun y hy =>
    List.filter_eq_self.2 fun d hd => decide_eq_true ((hfound y d hd).trans hy)
  have hother : ∀ y, y.exchange ≠ x.exchange →
      (found y).filter (·.exchange = x.exchange) = [] := fun y hy =>
    List.filter_eq_nil_iff.2 fun d hd => by rw [hfound y d hd]; exact mt of_decide_eq_true hy
  induction l with
  | nil => cases hx
  | cons y rest ih =>
    rw [List.map_cons, List.nodup_cons] at hl
    rw [List.flatMap_cons, List.filter_append]
    rcases List.mem_cons.1 hx with rfl | hx
    · have hrest : (rest.flatMap found).filter (·.exchange = x.exchange) = [] := by
        refine List.filter_eq_nil_iff.2 fun d hd => ?_
        obtain ⟨z, hz, hdz⟩ := List.mem_flatMap.1 hd
        refine mt of_decide_eq_true fun heq => hl.1 ?_
        rw [← heq, hfound z d hdz]
        exact List.mem_map_of_mem hz
      rw [hself x rfl, hrest, List.append_nil]
    · have hne : y.exchange ≠ x.exchange := fun heq => hl.1 (heq ▸ List.mem_map_of_mem hx)
      rw [hother y hne, List.nil_append, ih hl.2 hx]

/-- An exchange has the outcome of its snapshot. -/
theorem outcome_recordAll_iff (hl : (l.map (·.exchange)).Nodup) :
    (s.recordAll found l).outcomes.get? e = some o ↔
      (∃ x ∈ l, x.exchange = e ∧ ExchangeOutcome.ofSnapshot x = o) ∨
        (e ∉ l.map (·.exchange) ∧ s.outcomes.get? e = some o) := by
  induction l generalizing s with
  | nil => simp
  | cons x rest ih =>
    rw [List.map_cons, List.nodup_cons] at hl
    rw [recordAll_cons, ih hl.2, outcome_recordExchange, List.map_cons]
    by_cases he : e = x.exchange
    · subst he
      have hrest : ∀ y ∈ rest, y.exchange ≠ x.exchange := fun y hy heq =>
        hl.1 (heq ▸ List.mem_map_of_mem hy)
      simp only [if_true, Option.some.injEq, List.mem_cons, exists_eq_or_imp, true_and,
        not_true, false_and, or_false, hl.1, not_false_eq_true]
      exact or_comm
    · simp only [he, if_false, List.mem_cons, exists_eq_or_imp, false_or, Ne.symm he, false_and]

/-- Among the checked exchanges are those that gave something. -/
theorem checked_recordAll_iff :
    e ∈ (s.recordAll found l).checked.toList ↔
      (∃ x ∈ l, x.exchange = e ∧ ExchangeOutcome.ofSnapshot x ≠ .failed) ∨
        e ∈ s.checked.toList := by
  induction l generalizing s with
  | nil => simp
  | cons x rest ih =>
    rw [recordAll_cons, ih, checked_recordExchange_iff, List.exists_mem_cons_iff, eq_comm, or_assoc]
    exact or_left_comm

/-! ## 3. Failures -/

/-- Records exchanges that gave nothing. -/
def recordFailures (s : Session) (exchanges : List ExchangeId) : Session :=
  exchanges.foldl recordFailure s

section Failures

variable {exchanges : List ExchangeId}

@[simp] theorem recordFailures_nil : s.recordFailures [] = s := rfl

theorem recordFailures_cons :
    s.recordFailures (e :: exchanges) = (s.recordFailure e).recordFailures exchanges := rfl

/-- Failures touch two fields. -/
theorem recordFailures_frame : s.recordFailures exchanges =
    { s with
      checked := (s.recordFailures exchanges).checked
      outcomes := (s.recordFailures exchanges).outcomes } := by
  induction exchanges generalizing s with
  | nil => rfl
  | cons x rest ih =>
    rw [recordFailures_cons]
    exact ih

theorem outcome_recordFailure {x : ExchangeId} :
    (s.recordFailure x).outcomes.get? e =
      if e = x then some .failed else s.outcomes.get? e := by
  simp only [recordFailure, SortedMap.get?_insert, Std.LawfulEqOrd.compare_eq_iff_eq]

theorem outcome_recordFailures :
    (s.recordFailures exchanges).outcomes.get? e =
      if e ∈ exchanges then some .failed else s.outcomes.get? e := by
  induction exchanges generalizing s with
  | nil => simp
  | cons x rest ih =>
    rw [recordFailures_cons, ih, outcome_recordFailure]
    by_cases hrest : e ∈ rest <;> by_cases hx : e = x <;> simp [hrest, hx]

theorem checked_recordFailures_iff :
    e ∈ (s.recordFailures exchanges).checked.toList ↔ e ∉ exchanges ∧ e ∈ s.checked.toList := by
  induction exchanges generalizing s with
  | nil => simp
  | cons x rest ih =>
    rw [recordFailures_cons, ih, recordFailure, SortedSet.mem_toList_erase, List.mem_cons, not_or,
      ← and_assoc, and_comm (a := e ∉ rest)]

end Failures

/-! ## 4. The same snapshots at other times -/

section Recaptured

open ExchangeSnapshot (Recaptured)

/-- When snapshots were captured does not matter to what came of their exchanges. -/
theorem recordAll_recaptured (h : List.Forall₂ Recaptured l l') (ds : List Discrepancy) :
    { s with discrepancies := ds }.recordAll found l' =
      { s.recordAll found l with
        discrepancies := ({ s with discrepancies := ds }.recordAll found l').discrepancies } := by
  induction h generalizing s ds with
  | nil => rfl
  | @cons x _ _ _ hxy _ ih =>
    obtain ⟨time, rfl⟩ := hxy
    exact ih (s := s.recordExchange x (found x)) _

variable (hexchange : ∀ x, ∀ d ∈ found x, d.exchange = x.exchange)
  (hid : ∀ x, Discrepancy.IdByEntity (found x))
include hexchange hid

/-- Over different exchanges, entities determine ids if they do in each snapshot. -/
theorem idByEntity_flatMap (hl : (l.map (·.exchange)).Nodup) :
    Discrepancy.IdByEntity (l.flatMap found) := by
  intro a ha b hb hab
  obtain ⟨x, hx, hax⟩ := List.mem_flatMap.1 ha
  obtain ⟨y, hy, hby⟩ := List.mem_flatMap.1 hb
  have hxy : x.exchange = y.exchange := by rw [← hexchange x a hax, ← hexchange y b hby, hab]
  obtain rfl : x = y := List.inj_on_of_nodup_map hl hx hy hxy
  exact hid x a hax b hby hab

/-- **When snapshots were captured only dates what is found in them.** -/
theorem redated_recordAll
    (hredated : ∀ x y, Recaptured x y → List.Forall₂ Discrepancy.Redated (found x) (found y))
    (hs : s.discrepancies = []) (hl : (l.map (·.exchange)).Nodup)
    (h : List.Forall₂ Recaptured l l') :
    List.Forall₂ Discrepancy.Redated (s.recordAll found l).discrepancies
      (s.recordAll found l').discrepancies := by
  have hl' : (l'.map (·.exchange)).Nodup := by
    rw [ExchangeSnapshot.map_exchange_recaptured h]
    exact hl
  have hsorted : Discrepancy.sort s.discrepancies = s.discrepancies := by
    rw [hs, Discrepancy.sort_nil]
  rw [discrepancies_recordAll hsorted, discrepancies_recordAll hsorted, hs, List.nil_append,
    List.nil_append]
  refine Discrepancy.forall₂_sort (idByEntity_flatMap hexchange hid hl)
    (idByEntity_flatMap hexchange hid hl') ?_
  exact List.rel_flatMap h fun x y hxy => hredated x y hxy

end Recaptured

end Session
end Reconciliation
