/-
# The order of a report

A report is sorted after every exchange, and the ids that the order goes by in the end depend on
when a discrepancy was found.  Neither shows in the result.  Sorting is stable, so it only matters
in what order discrepancies arrive that compare alike, and those are of one exchange.

* `mergeSort_eq_of_alike`: lists that agree on what compares alike sort to one list;
* `filter_mergeSort`, `mergeSort_eq_of_perm`: sorting a part of a list, or all of it in another
  order;
* `Discrepancy.sort_append_sort`: sorting in between changes nothing;
* `Discrepancy.sort_append_comm`: it does not matter which exchange comes first;
* `Discrepancy.forall₂_sort`: nor when the discrepancies were found, as long as exchange, type
  and entity determine the id.
-/
import Mathlib.Data.List.Forall2
import Reconciliation.Compare.Detection

namespace Reconciliation

/-! ## 1. Stable sorting

`cmp` orders the list; elements that it calls equal may still differ. -/

section Stable

variable {α : Type} {cmp : α → α → Ordering}

/-- The elements that compare like `a`, in their order. -/
def alike (cmp : α → α → Ordering) (a : α) (l : List α) : List α := l.filter (cmp a · = .eq)

theorem mem_alike {a b : α} {l : List α} : b ∈ alike cmp a l ↔ b ∈ l ∧ cmp a b = .eq := by
  rw [alike, List.mem_filter, decide_eq_true_iff]

theorem alike_append (a : α) (l l' : List α) :
    alike cmp a (l ++ l') = alike cmp a l ++ alike cmp a l' := List.filter_append ..

variable [Std.TransCmp cmp]

theorem isLE_total (a b : α) : ((cmp a b).isLE || (cmp b a).isLE) = true := by
  have hswap : cmp b a = (cmp a b).swap := Std.OrientedCmp.eq_swap
  rw [Bool.or_eq_true, hswap]
  cases cmp a b <;> simp

theorem isLE_of_alike {a b c : α} (hb : cmp a b = .eq) (hc : cmp a c = .eq) :
    (cmp b c).isLE = true := by
  rw [← Std.TransCmp.congr_left hb, hc]
  rfl

/-- **Sorting is stable**: what compares alike keeps its order. -/
theorem alike_mergeSort (a : α) (l : List α) :
    alike cmp a (l.mergeSort fun x y => (cmp x y).isLE) = alike cmp a l := by
  have hsub : (alike cmp a l).Sublist (l.mergeSort fun x y => (cmp x y).isLE) := by
    refine List.sublist_mergeSort (fun _ _ _ => Std.TransCmp.isLE_trans) isLE_total ?_
      List.filter_sublist
    refine List.pairwise_of_forall_mem_list fun b hb c hc => ?_
    exact isLE_of_alike (mem_alike.1 hb).2 (mem_alike.1 hc).2
  have hfilter : (alike cmp a l).Sublist (alike cmp a (l.mergeSort fun x y => (cmp x y).isLE)) := by
    have h := hsub.filter (cmp a · = .eq)
    rwa [alike, List.filter_filter, show (fun x => decide (cmp a x = .eq) &&
      decide (cmp a x = .eq)) = fun x => decide (cmp a x = .eq) by simp] at h
  refine (hfilter.eq_of_length ?_).symm
  exact ((List.mergeSort_perm l _).filter _).length_eq.symm

/-- Sorted lists that agree on what compares alike are equal. -/
theorem eq_of_alike {l l' : List α} (hl : l.Pairwise fun x y => (cmp x y).isLE)
    (hl' : l'.Pairwise fun x y => (cmp x y).isLE) (h : ∀ a, alike cmp a l = alike cmp a l') :
    l = l' := by
  induction l generalizing l' with
  | nil =>
    cases l' with
    | nil => rfl
    | cons b t' =>
      have hb : b ∈ alike cmp b ([] : List α) := by
        rw [h b]
        exact mem_alike.2 ⟨List.mem_cons_self, Std.ReflCmp.compare_self⟩
      cases hb
  | cons a t ih =>
    cases l' with
    | nil =>
      have ha : a ∈ alike cmp a ([] : List α) := by
        rw [← h a]
        exact mem_alike.2 ⟨List.mem_cons_self, Std.ReflCmp.compare_self⟩
      cases ha
    | cons b t' =>
      obtain ⟨hat, ht⟩ := List.pairwise_cons.1 hl
      obtain ⟨hbt', ht'⟩ := List.pairwise_cons.1 hl'
      -- each head occurs in the other list, so neither is before the other
      have hba : (cmp b a).isLE = true := by
        have hmem : a ∈ alike cmp a (b :: t') := by
          rw [← h a]
          exact mem_alike.2 ⟨List.mem_cons_self, Std.ReflCmp.compare_self⟩
        rcases List.mem_cons.1 (mem_alike.1 hmem).1 with rfl | hmem
        · exact Std.ReflCmp.isLE_rfl
        · exact hbt' a hmem
      have hab : (cmp a b).isLE = true := by
        have hmem : b ∈ alike cmp b (a :: t) := by
          rw [h b]
          exact mem_alike.2 ⟨List.mem_cons_self, Std.ReflCmp.compare_self⟩
        rcases List.mem_cons.1 (mem_alike.1 hmem).1 with rfl | hmem
        · exact Std.ReflCmp.isLE_rfl
        · exact hat b hmem
      have heq : cmp a b = .eq := Std.OrientedCmp.isLE_antisymm hab hba
      -- so both are the first of what compares like them
      have hheads := h a
      rw [alike, alike, List.filter_cons_of_pos (by simp [Std.ReflCmp.compare_self]),
        List.filter_cons_of_pos (by simp [heq])] at hheads
      obtain ⟨rfl, -⟩ := List.cons.inj hheads
      refine congrArg _ (ih ht ht' fun c => ?_)
      have hc := h c
      by_cases hca : cmp c a = .eq
      · rw [alike, alike, List.filter_cons_of_pos (by simp [hca]),
          List.filter_cons_of_pos (by simp [hca])] at hc
        exact List.tail_eq_of_cons_eq hc
      · rwa [alike, alike, List.filter_cons_of_neg (by simp [hca]),
          List.filter_cons_of_neg (by simp [hca])] at hc

theorem pairwise_isLE_mergeSort (l : List α) :
    (l.mergeSort fun x y => (cmp x y).isLE).Pairwise fun x y => (cmp x y).isLE :=
  List.pairwise_mergeSort (fun _ _ _ => Std.TransCmp.isLE_trans) isLE_total l

/-- **Lists that agree on what compares alike sort to one list.** -/
theorem mergeSort_eq_of_alike {l l' : List α} (h : ∀ a, alike cmp a l = alike cmp a l') :
    l.mergeSort (fun x y => (cmp x y).isLE) = l'.mergeSort fun x y => (cmp x y).isLE := by
  refine eq_of_alike (pairwise_isLE_mergeSort l) (pairwise_isLE_mergeSort l') fun a => ?_
  rw [alike_mergeSort, alike_mergeSort, h]

/-- Leaving elements out does not disturb the order of the others. -/
theorem filter_mergeSort (p : α → Bool) (l : List α) :
    (l.mergeSort fun x y => (cmp x y).isLE).filter p =
      (l.filter p).mergeSort fun x y => (cmp x y).isLE := by
  refine eq_of_alike ((pairwise_isLE_mergeSort l).filter p) (pairwise_isLE_mergeSort _) fun a => ?_
  calc alike cmp a ((l.mergeSort fun x y => (cmp x y).isLE).filter p)
      = (alike cmp a (l.mergeSort fun x y => (cmp x y).isLE)).filter p := List.filter_comm ..
    _ = (alike cmp a l).filter p := by rw [alike_mergeSort]
    _ = alike cmp a (l.filter p) := List.filter_comm ..
    _ = alike cmp a ((l.filter p).mergeSort fun x y => (cmp x y).isLE) := by rw [alike_mergeSort]

/-- A list in which only equal elements compare alike is sorted the same from any order. -/
theorem mergeSort_eq_of_perm {l l' : List α} (h : l.Perm l')
    (heq : ∀ a ∈ l, ∀ b ∈ l, cmp a b = .eq → a = b) :
    l.mergeSort (fun x y => (cmp x y).isLE) = l'.mergeSort fun x y => (cmp x y).isLE := by
  have hperm : (l.mergeSort fun x y => (cmp x y).isLE).Perm
      (l'.mergeSort fun x y => (cmp x y).isLE) :=
    (List.mergeSort_perm l _).trans (h.trans (List.mergeSort_perm l' _).symm)
  have hantisymm : ∀ a b, a ∈ l.mergeSort (fun x y => (cmp x y).isLE) →
      b ∈ l'.mergeSort (fun x y => (cmp x y).isLE) → (cmp a b).isLE → (cmp b a).isLE → a = b := by
    intro a b ha hb hab hba
    exact heq a (List.mem_mergeSort.1 ha) b (h.mem_iff.2 (List.mem_mergeSort.1 hb))
      (Std.OrientedCmp.isLE_antisymm hab hba)
  exact hperm.eq_of_pairwise hantisymm (pairwise_isLE_mergeSort l) (pairwise_isLE_mergeSort l')

end Stable

/-- Lists that are related element by element stay so when sorted, if the orders agree. -/
theorem forall₂_mergeSort {α β : Type} {R : α → β → Prop} {le : α → α → Bool}
    {le' : β → β → Bool} {l : List α} {m : List β} (h : List.Forall₂ R l m)
    (hle : ∀ a ∈ l, ∀ b ∈ l, ∀ a' ∈ m, ∀ b' ∈ m, R a a' → R b b' → le a b = le' a' b') :
    List.Forall₂ R (l.mergeSort le) (m.mergeSort le') := by
  obtain ⟨hlen, hzip⟩ := List.forall₂_iff_zip.1 h
  -- both lists are the two sides of one list of pairs, which is sorted once
  have hfst : (l.zip m).map Prod.fst = l := List.map_fst_zip (by omega)
  have hsnd : (l.zip m).map Prod.snd = m := List.map_snd_zip (by omega)
  have hmem : ∀ p ∈ l.zip m, p.1 ∈ l ∧ p.2 ∈ m ∧ R p.1 p.2 := fun p hp =>
    ⟨(List.of_mem_zip hp).1, (List.of_mem_zip hp).2, hzip hp⟩
  have hl : ((l.zip m).mergeSort fun p q => le p.1 q.1).map Prod.fst = l.mergeSort le := by
    rw [List.map_mergeSort (f := Prod.fst) (s := le) fun _ _ _ _ => rfl, hfst]
  have hm : ((l.zip m).mergeSort fun p q => le p.1 q.1).map Prod.snd = m.mergeSort le' := by
    rw [List.map_mergeSort (f := Prod.snd) (s := le'), hsnd]
    intro p hp q hq
    obtain ⟨hp1, hp2, hpR⟩ := hmem p hp
    obtain ⟨hq1, hq2, hqR⟩ := hmem q hq
    exact hle p.1 hp1 q.1 hq1 p.2 hp2 q.2 hq2 hpR hqR
  rw [← hl, ← hm, List.forall₂_map_left_iff, List.forall₂_map_right_iff, List.forall₂_same]
  exact fun p hp => (hmem p (List.mem_mergeSort.1 hp)).2.2

/-! ## 2. Report order -/

namespace Discrepancy

instance : Std.TransCmp compareKeys :=
  inferInstanceAs (Std.TransCmp (compareLex (compareOn exchange)
    (compareLex (compareOn fun d => d.type.rank) (compareLex (compareOn entity) (compareOn id)))))

theorem exchange_eq_of_compareKeys {a b : Discrepancy} (h : compareKeys a b = .eq) :
    a.exchange = b.exchange := by
  refine Std.LawfulEqOrd.eq_of_compare ?_
  simp only [compareKeys, Ordering.then_eq_eq] at h
  exact h.1

theorem perm_sort (l : List Discrepancy) : (sort l).Perm l := List.mergeSort_perm ..

theorem mem_sort {l : List Discrepancy} {d : Discrepancy} : d ∈ sort l ↔ d ∈ l :=
  (perm_sort l).mem_iff

@[simp] theorem sort_nil : sort [] = [] := List.mergeSort_nil

theorem pairwise_sort (l : List Discrepancy) :
    (sort l).Pairwise fun a b => (compareKeys a b).isLE := pairwise_isLE_mergeSort l

theorem filter_sort (p : Discrepancy → Bool) (l : List Discrepancy) :
    (sort l).filter p = sort (l.filter p) := filter_mergeSort p l

/-- Sorting in between changes nothing. -/
theorem sort_append_sort (l l' : List Discrepancy) : sort (sort l ++ l') = sort (l ++ l') := by
  refine mergeSort_eq_of_alike fun a => ?_
  rw [alike_append, alike_append, sort, alike_mergeSort]

theorem sort_sort (l : List Discrepancy) : sort (sort l) = sort l := by
  have h := sort_append_sort l []
  rwa [List.append_nil, List.append_nil] at h

/-- It does not matter which exchange comes first. -/
theorem sort_append_comm (l : List Discrepancy) {m n : List Discrepancy}
    (h : ∀ a ∈ m, ∀ b ∈ n, a.exchange ≠ b.exchange) :
    sort (l ++ m ++ n) = sort (l ++ n ++ m) := by
  refine mergeSort_eq_of_alike fun d => ?_
  have hone : alike compareKeys d m = [] ∨ alike compareKeys d n = [] := by
    by_contra hne
    obtain ⟨hm, hn⟩ := not_or.1 hne
    obtain ⟨a, ha⟩ := List.exists_mem_of_ne_nil _ hm
    obtain ⟨b, hb⟩ := List.exists_mem_of_ne_nil _ hn
    obtain ⟨hma, hda⟩ := mem_alike.1 ha
    obtain ⟨hnb, hdb⟩ := mem_alike.1 hb
    refine h a hma b hnb ?_
    rw [← exchange_eq_of_compareKeys hda, exchange_eq_of_compareKeys hdb]
  simp only [alike_append]
  rcases hone with hm | hn
  · rw [hm, List.append_nil, List.append_nil]
  · rw [hn, List.append_nil, List.append_nil]

/-! ## 3. The same discrepancies at other times -/

section New

variable (exchange : ExchangeId) (type : DiscrepancyType) (severity : Severity) (entity : String)
  (expected actual : Option String) (description : String) (time : Instant)

@[simp] theorem exchange_new :
    (new exchange type severity entity expected actual description time).exchange = exchange := by
  rw [new]

@[simp] theorem type_new :
    (new exchange type severity entity expected actual description time).type = type := by
  rw [new]

@[simp] theorem severity_new :
    (new exchange type severity entity expected actual description time).severity = severity := by
  rw [new]

@[simp] theorem entity_new :
    (new exchange type severity entity expected actual description time).entity = entity := by
  rw [new]

@[simp] theorem expected_new :
    (new exchange type severity entity expected actual description time).expected = expected := by
  rw [new]

@[simp] theorem actual_new :
    (new exchange type severity entity expected actual description time).actual = actual := by
  rw [new]

@[simp] theorem description_new :
    (new exchange type severity entity expected actual description time).description =
      description := by
  rw [new]

theorem id_new :
    (new exchange type severity entity expected actual description time).id =
      .named idSpace (fingerprint exchange type entity expected actual time) := by
  rw [new]

end New

/-- The discrepancy, found at another time. -/
def foundAt (d : Discrepancy) (time : Instant) : Discrepancy :=
  .new d.exchange d.type d.severity d.entity d.expected d.actual d.description time

/-- `Redated d d'`: they differ in the time, and in the id that is derived from it, at most. -/
def Redated (d d' : Discrepancy) : Prop := ∃ time, d' = d.foundAt time

namespace Redated

variable {d d' : Discrepancy}

theorem exchange_eq (h : Redated d d') : d'.exchange = d.exchange := by
  obtain ⟨time, rfl⟩ := h
  rw [foundAt, exchange_new]

theorem type_eq (h : Redated d d') : d'.type = d.type := by
  obtain ⟨time, rfl⟩ := h
  rw [foundAt, type_new]

theorem severity_eq (h : Redated d d') : d'.severity = d.severity := by
  obtain ⟨time, rfl⟩ := h
  rw [foundAt, severity_new]

theorem entity_eq (h : Redated d d') : d'.entity = d.entity := by
  obtain ⟨time, rfl⟩ := h
  rw [foundAt, entity_new]

end Redated

/-- In the list, exchange, type and entity determine the id. -/
def IdByEntity (l : List Discrepancy) : Prop :=
  ∀ a ∈ l, ∀ b ∈ l, a.exchange = b.exchange → a.type = b.type → a.entity = b.entity → a.id = b.id

/-- The order before ids are looked at. -/
def compareEntities (a b : Discrepancy) : Ordering :=
  (compare a.exchange b.exchange).then <|
  (compare a.type.rank b.type.rank).then <|
  compare a.entity b.entity

theorem rank_inj {t u : DiscrepancyType} (h : t.rank = u.rank) : t = u := by
  cases t <;> cases u <;> first | rfl | cases h

theorem compareKeys_eq (a b : Discrepancy) :
    compareKeys a b = (compareEntities a b).then (compare a.id b.id) := by
  simp only [compareKeys, compareEntities, Ordering.then_assoc]

/-- Where entities determine ids, ids do not matter to the order. -/
theorem compareKeys_eq_compareEntities {l : List Discrepancy} (hl : IdByEntity l)
    {a b : Discrepancy} (ha : a ∈ l) (hb : b ∈ l) : compareKeys a b = compareEntities a b := by
  rw [compareKeys_eq]
  cases h : compareEntities a b with
  | lt => rfl
  | gt => rfl
  | eq =>
    simp only [compareEntities, Ordering.then_eq_eq] at h
    obtain ⟨hexchange, htype, hentity⟩ := h
    have hid : a.id = b.id := hl a ha b hb (Std.LawfulEqOrd.eq_of_compare hexchange)
      (rank_inj (Std.LawfulEqOrd.eq_of_compare htype)) (Std.LawfulEqOrd.eq_of_compare hentity)
    have hself : compare b.id b.id = .eq := Std.ReflCmp.compare_self
    rw [hid, hself, Ordering.then_eq]

theorem Redated.compareEntities {a a' b b' : Discrepancy} (ha : Redated a a') (hb : Redated b b') :
    compareEntities a' b' = Discrepancy.compareEntities a b := by
  simp only [Discrepancy.compareEntities, ha.exchange_eq, ha.type_eq, ha.entity_eq,
    hb.exchange_eq, hb.type_eq, hb.entity_eq]

/-- **Report order does not depend on when the discrepancies were found**, where entities
determine ids. -/
theorem forall₂_sort {l l' : List Discrepancy} (hl : IdByEntity l) (hl' : IdByEntity l')
    (h : List.Forall₂ Redated l l') : List.Forall₂ Redated (sort l) (sort l') := by
  unfold sort
  refine forall₂_mergeSort h fun a ha b hb a' ha' b' hb' haa hbb => ?_
  rw [compareKeys_eq_compareEntities hl ha hb, compareKeys_eq_compareEntities hl' ha' hb',
    haa.compareEntities hbb]

end Discrepancy

end Reconciliation
