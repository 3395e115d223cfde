/-
# Matching records by key

Comparing two sides by key comes down to three operations: the results of a check on all keys are
gathered, the keys of both sides are united, and the records of a side are indexed.  Each is
settled here for any kind of record.

* `mem_of_gather`, `gather_eq_nil_iff`: what a gathering finds, and when it finds nothing;
* `sublist_map_gather`: what it finds comes in order, and once for each key;
* `gather_filter`, `filter_unionKeys_congr`: some of the keys alone;
* `get?_ofList_eq_none_iff`, `get?_ofList_eq_valid_iff`: a key is without record, has its only
  and proper record, or stands for records that cannot be compared;
* `get?_ofList_eq_suspect`: a record with a problem, or a second one, marks its key for good;
* `get?_ofList_congr`, `filter_problems_ofList`: what becomes of a key is decided by the records
  under it;
* `countP_problems_ofList`: how many problems are noted under a key;
* `problems_ofList_of_nodup`: what is noted where no key is there twice;
* `problems_ofList_eq_nil_iff`: nothing is left out.
-/
import Mathlib.Data.List.Induction
import Reconciliation.Compare.Detection
import Reconciliation.Proofs.Checked
import Reconciliation.Proofs.SortedMap

namespace Reconciliation

namespace Detection

/-! ## 1. Gathering -/

section Gather

variable {α β : Type} {f : α → Checked (Option β)}

theorem gather_cons (f : α → Checked (Option β)) (a : α) (l : List α) :
    gather f (a :: l) = f a >>= fun b => gather f l >>= fun bs => pure (b.toList ++ bs) := rfl

/-- What is gathered is what the function finds. -/
theorem mem_of_gather {l : List α} {bs : List β} (h : gather f l = .ok bs) {b : β} :
    b ∈ bs ↔ ∃ a ∈ l, f a = .ok (some b) := by
  induction l generalizing bs with
  | nil =>
    cases h
    simp
  | cons a l ih =>
    simp only [gather_cons, bind_eq_ok_iff, pure_eq_ok_iff] at h
    obtain ⟨o, ho, bs', hbs', rfl⟩ := h
    simp [ih hbs', ho, eq_comm]

theorem gather_eq_nil_iff {l : List α} : gather f l = .ok [] ↔ ∀ a ∈ l, f a = .ok none := by
  induction l with
  | nil => simp [gather]
  | cons a l ih =>
    simp only [gather_cons, bind_eq_ok_iff, pure_eq_ok_iff, List.append_eq_nil_iff,
      Option.toList_eq_nil_iff, List.forall_mem_cons, ← ih]
    constructor
    · rintro ⟨o, ho, bs, hbs, rfl, rfl⟩
      exact ⟨ho, hbs⟩
    · rintro ⟨ho, hbs⟩
      exact ⟨none, ho, [], hbs, rfl, rfl⟩

/-- A gathering comes out if every check does. -/
theorem exists_gather_iff {l : List α} :
    (∃ bs, gather f l = .ok bs) ↔ ∀ a ∈ l, ∃ o, f a = .ok o := by
  induction l with
  | nil => exact iff_of_true ⟨[], rfl⟩ fun a ha => absurd ha List.not_mem_nil
  | cons a l ih =>
    rw [gather_cons, exists_bind_eq_ok_iff, List.forall_mem_cons, ← ih]
    constructor
    · rintro ⟨o, ho, h⟩
      obtain ⟨bs, hbs, -⟩ := exists_bind_eq_ok_iff.1 h
      exact ⟨⟨o, ho⟩, bs, hbs⟩
    · rintro ⟨⟨o, ho⟩, bs, hbs⟩
      exact ⟨o, ho, exists_bind_eq_ok_iff.2 ⟨bs, hbs, _, rfl⟩⟩

/-- What is gathered comes in the order of what is checked, some of which may find nothing. -/
theorem sublist_map_gather {g : β → γ} {g' : α → γ} (hf : ∀ a b, f a = .ok (some b) → g b = g' a)
    {l : List α} {bs : List β} (h : gather f l = .ok bs) : (bs.map g).Sublist (l.map g') := by
  induction l generalizing bs with
  | nil =>
    cases h
    exact .slnil
  | cons a l ih =>
    simp only [gather_cons, bind_eq_ok_iff, pure_eq_ok_iff] at h
    obtain ⟨o, ho, bs', hbs', rfl⟩ := h
    cases o with
    | none => exact (ih hbs').cons _
    | some b =>
      rw [Option.toList_some, List.singleton_append, List.map_cons, hf a b ho]
      exact (ih hbs').cons_cons _

/-- Checks that agree on what is checked gather the same. -/
theorem gather_congr {f' : α → Checked (Option β)} {l : List α} (h : ∀ a ∈ l, f a = f' a) :
    gather f l = gather f' l := by
  induction l with
  | nil => rfl
  | cons a l ih =>
    obtain ⟨ha, hl⟩ := List.forall_mem_cons.1 h
    rw [gather_cons, gather_cons, ha, ih hl]

/-- Leaving out some of what is checked leaves out what is found there, and nothing else. -/
theorem gather_filter {p : α → Bool} {q : β → Bool} (hf : ∀ a b, f a = .ok (some b) → q b = p a)
    {l : List α} {bs : List β} (h : gather f l = .ok bs) :
    gather f (l.filter p) = .ok (bs.filter q) := by
  induction l generalizing bs with
  | nil =>
    cases h
    rfl
  | cons a l ih =>
    simp only [gather_cons, bind_eq_ok_iff, pure_eq_ok_iff] at h
    obtain ⟨o, ho, bs', hbs', rfl⟩ := h
    have hfound : o.toList.filter q = if p a then o.toList else [] := by
      cases o with
      | none => simp
      | some b => simp [List.filter_cons, hf a b ho]
    rw [List.filter_append, hfound]
    split
    · rename_i hp
      rw [List.filter_cons_of_pos hp, gather_cons, ho, ih hbs']
      rfl
    · rename_i hp
      rw [List.filter_cons_of_neg hp, ih hbs', List.nil_append]

end Gather

/-! ## 2. The keys of both sides -/

variable {κ α β : Type} [Ord κ] [Std.TransOrd κ] [Std.LawfulEqOrd κ]

theorem mem_unionKeys {m : SortedMap κ α} {n : SortedMap κ β} {k : κ} :
    k ∈ unionKeys m n ↔ m.get? k ≠ none ∨ n.get? k ≠ none := by
  simp only [unionKeys, SortedSet.mem_toList_ofKeys, List.mem_append, SortedMap.mem_keys_iff,
    ← Option.ne_none_iff_exists']

theorem nodup_unionKeys (m : SortedMap κ α) (n : SortedMap κ β) : (unionKeys m n).Nodup :=
  SortedMap.nodup_keys _

/-- Sides that agree on some of the keys have the same united keys among these. -/
theorem filter_unionKeys_congr {p : κ → Bool} {m m' : SortedMap κ α} {n n' : SortedMap κ β}
    (hm : ∀ k, p k → m.get? k = m'.get? k) (hn : ∀ k, p k → n.get? k = n'.get? k) :
    (unionKeys m n).filter p = (unionKeys m' n').filter p := by
  refine SortedSet.filter_toList_congr fun k hk => ?_
  have hmem : k ∈ unionKeys m n ↔ k ∈ unionKeys m' n' := by
    rw [mem_unionKeys, mem_unionKeys, hm k hk, hn k hk]
  exact hmem

/-- A check that finds nothing where there is no record has only the united keys to look at. -/
theorem gather_unionKeys_eq_nil_iff {m : SortedMap κ α} {n : SortedMap κ β}
    {f : κ → Checked (Option γ)} (hf : ∀ k, m.get? k = none → n.get? k = none → f k = .ok none) :
    gather f (unionKeys m n) = .ok [] ↔ ∀ k, f k = .ok none := by
  rw [gather_eq_nil_iff]
  refine ⟨fun h k => ?_, fun h k _ => h k⟩
  by_cases hk : k ∈ unionKeys m n
  · exact h k hk
  · rw [mem_unionKeys, not_or, not_not, not_not] at hk
    exact hf k hk.1 hk.2

theorem exists_gather_unionKeys_iff {m : SortedMap κ α} {n : SortedMap κ β}
    {f : κ → Checked (Option γ)}
    (hf : ∀ k, m.get? k = none → n.get? k = none → ∃ o, f k = .ok o) :
    (∃ l, gather f (unionKeys m n) = .ok l) ↔ ∀ k, ∃ o, f k = .ok o := by
  rw [exists_gather_iff]
  refine ⟨fun h k => ?_, fun h k _ => h k⟩
  by_cases hk : k ∈ unionKeys m n
  · exact h k hk
  · rw [mem_unionKeys, not_or, not_not, not_not] at hk
    exact hf k hk.1 hk.2

/-! ## 3. Indexing -/

namespace Index

variable {key : α → κ} {problem : α → Option RecordProblem}
  {repeated : RecordProblem}

theorem ofList_nil : ofList key problem repeated [] = .empty := rfl

theorem ofList_append_singleton (l : List α) (a : α) :
    ofList key problem repeated (l ++ [a]) =
      (ofList key problem repeated l).add key problem repeated a := by
  simp [ofList]

/-- A record is taken as it is if it has no problem and its key is new. -/
theorem add_eq_of_valid {index : Index κ α} {a : α} (hp : problem a = none)
    (hk : index.records.get? (key a) = none) :
    index.add key problem repeated a =
      ⟨index.records.insert (key a) (some a), index.problems⟩ := by
  simp [add, hp, SortedMap.contains, hk]

variable (repeated) in
/-- Any other record marks its key, and a problem is noted. -/
theorem add_eq_of_not_valid {index : Index κ α} {a : α}
    (h : ¬ (problem a = none ∧ index.records.get? (key a) = none)) :
    ∃ p, index.add key problem repeated a =
      ⟨index.records.insert (key a) none, index.problems ++ [(key a, p)]⟩ := by
  unfold add
  cases hp : problem a with
  | some p => exact ⟨p, by simp⟩
  | none =>
    have hk : index.records.contains (key a) = true :=
      Option.isSome_iff_ne_none.2 fun hk => h ⟨hp, hk⟩
    exact ⟨repeated, by simp [hk]⟩

/-- The keys of an index are those of the records. -/
theorem get?_ofList_eq_none_iff {l : List α} {k : κ} :
    (ofList key problem repeated l).records.get? k = none ↔ ∀ a ∈ l, key a ≠ k := by
  induction l using List.reverseRecOn with
  | nil => simp [ofList_nil, empty]
  | append_singleton l a ih =>
    have hinsert : ∃ o, ((ofList key problem repeated l).add key problem repeated a).records =
        (ofList key problem repeated l).records.insert (key a) o := by
      by_cases h : problem a = none ∧ (ofList key problem repeated l).records.get? (key a) = none
      · exact ⟨_, by rw [add_eq_of_valid h.1 h.2]⟩
      · obtain ⟨p, hp⟩ := add_eq_of_not_valid repeated h
        exact ⟨_, by rw [hp]⟩
    obtain ⟨o, ho⟩ := hinsert
    rw [ofList_append_singleton, ho, List.forall_mem_append, ← ih, List.forall_mem_singleton]
    by_cases hk : k = key a
    · subst hk
      simp
    · simp [SortedMap.get?_insert_of_ne _ _ hk, Ne.symm hk]

/-- A key stands for a record exactly if that is its only record and has no problem. -/
theorem get?_ofList_eq_valid_iff [DecidableEq κ] {l : List α} {k : κ} {a : α} :
    (ofList key problem repeated l).records.get? k = some (some a) ↔
      l.filter (key · = k) = [a] ∧ problem a = none := by
  induction l using List.reverseRecOn with
  | nil => simp [ofList_nil, empty]
  | append_singleton l x ih =>
    have hfresh : (ofList key problem repeated l).records.get? (key x) = none ↔
        l.filter (key · = key x) = [] := by
      simp [get?_ofList_eq_none_iff, List.filter_eq_nil_iff]
    rw [ofList_append_singleton, List.filter_append]
    by_cases hk : key x = k
    · subst hk
      rw [List.filter_cons_of_pos (by simp), List.filter_nil]
      by_cases hx : problem x = none ∧ (ofList key problem repeated l).records.get? (key x) = none
      · rw [add_eq_of_valid hx.1 hx.2, hfresh.1 hx.2]
        simp only [SortedMap.get?_insert_self, Option.some.injEq, List.nil_append, List.cons.injEq,
          and_true]
        exact ⟨fun e => ⟨e, e ▸ hx.1⟩, fun e => e.1⟩
      · obtain ⟨p, hp⟩ := add_eq_of_not_valid repeated hx
        rw [hp]
        simp only [SortedMap.get?_insert_self, Option.some.injEq, reduceCtorEq, false_iff, not_and]
        intro hsingle hpa
        have hlast : l.filter (key · = key x) ++ [x] = [] ++ [a] := hsingle
        obtain ⟨hnil, hxa⟩ := List.append_inj' hlast rfl
        obtain rfl : x = a := List.singleton_inj.1 hxa
        exact hx ⟨hpa, hfresh.2 hnil⟩
    · rw [List.filter_cons_of_neg (by simpa using hk), List.filter_nil, List.append_nil, ← ih]
      by_cases hx : problem x = none ∧ (ofList key problem repeated l).records.get? (key x) = none
      · rw [add_eq_of_valid hx.1 hx.2, SortedMap.get?_insert_of_ne _ _ (Ne.symm hk)]
      · obtain ⟨p, hp⟩ := add_eq_of_not_valid repeated hx
        rw [hp, SortedMap.get?_insert_of_ne _ _ (Ne.symm hk)]

/-- A key that has a record with a problem, or a second record, stands for no record, whatever
comes before, between or after. -/
theorem get?_ofList_eq_suspect [DecidableEq κ] {l : List α} {k : κ}
    (h : (∃ a ∈ l.filter (key · = k), problem a ≠ none) ∨ 1 < (l.filter (key · = k)).length) :
    (ofList key problem repeated l).records.get? k = some none := by
  match hget : (ofList key problem repeated l).records.get? k with
  | some none => rfl
  | none =>
    have hnil : l.filter (key · = k) = [] := by
      simpa [List.filter_eq_nil_iff] using get?_ofList_eq_none_iff.1 hget
    simp [hnil] at h
  | some (some a) =>
    obtain ⟨hfilter, hproblem⟩ := get?_ofList_eq_valid_iff.1 hget
    simp [hfilter, hproblem] at h

/-- **Every record but the first proper one of its key is noted.**  Under a key, one problem is
noted for each record that has one by itself, and one for each other record that is not the first
under its key. -/
theorem countP_problems_ofList [DecidableEq κ] (l : List α) (k : κ) :
    (ofList key problem repeated l).problems.countP (·.1 = k) =
      (l.filter (key · = k)).countP (problem · ≠ none) +
        (l.filter (key · = k)).tail.countP (problem · = none) := by
  induction l using List.reverseRecOn with
  | nil => rfl
  | append_singleton l x ih =>
    have hfresh : (ofList key problem repeated l).records.get? (key x) = none ↔
        l.filter (key · = key x) = [] := by
      simp [get?_ofList_eq_none_iff, List.filter_eq_nil_iff]
    rw [ofList_append_singleton, List.filter_append]
    by_cases hk : key x = k
    · subst hk
      rw [List.filter_cons_of_pos (by simp), List.filter_nil]
      by_cases hx : problem x = none ∧ (ofList key problem repeated l).records.get? (key x) = none
      · rw [add_eq_of_valid hx.1 hx.2, ih, hfresh.1 hx.2]
        simp [hx.1]
      · obtain ⟨p, hp⟩ := add_eq_of_not_valid repeated hx
        rw [hfresh, not_and] at hx
        rw [hp, List.countP_append, ih, List.countP_append]
        cases hrest : l.filter (key · = key x) with
        | nil =>
          have hproblem : problem x ≠ none := fun hnone => hx hnone hrest
          simp [hproblem]
        | cons a rest =>
          rw [List.cons_append, List.tail_cons, List.tail_cons, List.countP_append]
          by_cases hproblem : problem x = none
          · simp [hproblem, Nat.add_assoc]
          · simp [hproblem, Nat.add_right_comm]
    · rw [List.filter_cons_of_neg (by simpa using hk), List.filter_nil, List.append_nil, ← ih]
      by_cases hx : problem x = none ∧ (ofList key problem repeated l).records.get? (key x) = none
      · rw [add_eq_of_valid hx.1 hx.2]
      · obtain ⟨p, hp⟩ := add_eq_of_not_valid repeated hx
        rw [hp, List.countP_append, List.countP_singleton, if_neg (by simpa using hk), Nat.add_zero]

/-- What is noted is that a key is taken, or a record's own problem. -/
theorem mem_problems_ofList {l : List α} {e : κ × RecordProblem}
    (h : e ∈ (ofList key problem repeated l).problems) :
    e.2 = repeated ∨ ∃ a ∈ l, problem a = some e.2 := by
  induction l using List.reverseRecOn with
  | nil => cases h
  | append_singleton l x ih =>
    have hold : e ∈ (ofList key problem repeated l).problems →
        e.2 = repeated ∨ ∃ a ∈ l ++ [x], problem a = some e.2 := fun h =>
      (ih h).imp id fun ⟨a, ha, hproblem⟩ => ⟨a, List.mem_append_left _ ha, hproblem⟩
    rw [ofList_append_singleton, add] at h
    split at h
    · rename_i p hp
      rcases List.mem_append.1 h with h | h
      · exact hold h
      · rw [List.mem_singleton.1 h]
        rcases Option.or_eq_some_iff.1 hp with hp | ⟨-, hp⟩
        · exact .inr ⟨x, List.mem_append_right _ (List.mem_singleton_self x), hp⟩
        · split at hp <;> cases hp
          exact .inl rfl
    · exact hold h

/-- A key stands for at most one record, which has no problem. -/
theorem get?_ofList_eq_map_some_iff [DecidableEq κ] {l : List α} {k : κ} {o : Option α} :
    (ofList key problem repeated l).records.get? k = o.map some ↔
      l.filter (key · = k) = o.toList ∧ ∀ a ∈ o, problem a = none := by
  cases o with
  | none => simp [get?_ofList_eq_none_iff, List.filter_eq_nil_iff]
  | some a => simp [get?_ofList_eq_valid_iff]

/-- What a key stands for depends on the records under it. -/
theorem get?_ofList_congr [DecidableEq κ] {l l' : List α} {k : κ}
    (h : l.filter (key · = k) = l'.filter (key · = k)) :
    (ofList key problem repeated l).records.get? k =
      (ofList key problem repeated l').records.get? k := by
  have hrecord : ∀ o : Option α, (ofList key problem repeated l).records.get? k = o.map some ↔
      (ofList key problem repeated l').records.get? k = o.map some := by
    intro o
    rw [get?_ofList_eq_map_some_iff, get?_ofList_eq_map_some_iff, h]
  match hget : (ofList key problem repeated l').records.get? k with
  | none => exact (hrecord none).2 hget
  | some (some a) => exact (hrecord (some a)).2 hget
  | some none =>
    match hget' : (ofList key problem repeated l).records.get? k with
    | none => rw [(hrecord none).1 hget'] at hget; cases hget
    | some (some a) => rw [(hrecord (some a)).1 hget'] at hget; cases hget
    | some none => rfl

/-- What a record adds to the problems depends on whether its key is taken. -/
theorem problems_add (index : Index κ α) (a : α) :
    (index.add key problem repeated a).problems = index.problems ++
      (((problem a).or (if index.records.contains (key a) then some repeated else none)).map
        (key a, ·)).toList := by
  unfold add
  cases (problem a).or (if index.records.contains (key a) then some repeated else none) with
  | none => exact (List.append_nil _).symm
  | some p => rfl

/-- A record's own problem is noted under its key, whatever else is. -/
theorem mem_problems_ofList_of_problem {l : List α} {a : α} {p : RecordProblem} (ha : a ∈ l)
    (hp : problem a = some p) : (key a, p) ∈ (ofList key problem repeated l).problems := by
  induction l using List.reverseRecOn with
  | nil => cases ha
  | append_singleton l x ih =>
    rw [ofList_append_singleton, problems_add]
    rcases List.mem_append.1 ha with ha | ha
    · exact List.mem_append_left _ (ih ha)
    · obtain rfl := List.mem_singleton.1 ha
      rw [hp, Option.some_or, Option.map_some]
      exact List.mem_append_right _ (List.mem_singleton_self _)

/-- What is noted under some of the keys depends on the records under these. -/
theorem filter_problems_ofList [DecidableEq κ] (p : κ → Bool) (l : List α) :
    ((ofList key problem repeated l).problems.filter fun e => p e.1) =
      (ofList key problem repeated (l.filter fun a => p (key a))).problems := by
  induction l using List.reverseRecOn with
  | nil => rfl
  | append_singleton l x ih =>
    have hadded : ∀ o : Option RecordProblem, ((o.map (key x, ·)).toList.filter fun e => p e.1) =
        if p (key x) then (o.map (key x, ·)).toList else [] := by
      intro o
      cases o with
      | none => simp
      | some r => simp [List.filter_cons]
    rw [ofList_append_singleton, problems_add, List.filter_append, List.filter_append, ih, hadded,
      List.filter_singleton]
    cases hx : p (key x) with
    | true =>
      have hget : (ofList key problem repeated (l.filter fun a => p (key a))).records.get? (key x) =
          (ofList key problem repeated l).records.get? (key x) := by
        refine get?_ofList_congr ?_
        rw [List.filter_filter]
        refine List.filter_congr fun a _ => ?_
        by_cases ha : key a = key x <;> simp [ha, hx]
      rw [cond_true, ofList_append_singleton, problems_add, SortedMap.contains, SortedMap.contains,
        hget, if_pos rfl]
    | false => rw [cond_false, List.append_nil, if_neg Bool.false_ne_true, List.append_nil]

/-- Where no key is there twice, what is noted are the problems of the records, in their order. -/
theorem problems_ofList_of_nodup {l : List α} (h : (l.map key).Nodup) :
    (ofList key problem repeated l).problems =
      l.filterMap fun a => (problem a).map (key a, ·) := by
  induction l using List.reverseRecOn with
  | nil => rfl
  | append_singleton l x ih =>
    rw [List.map_append, List.map_singleton, (List.perm_append_singleton _ _).nodup_iff,
      List.nodup_cons] at h
    obtain ⟨hfresh, hl⟩ := h
    have hnew : (ofList key problem repeated l).records.contains (key x) = false := by
      rw [SortedMap.contains_eq_false_iff, get?_ofList_eq_none_iff]
      exact fun a ha hkey => hfresh (List.mem_map.2 ⟨a, ha, hkey⟩)
    rw [ofList_append_singleton, problems_add, hnew, if_neg Bool.false_ne_true, Option.or_none,
      List.filterMap_append, ih hl]
    cases hproblem : problem x <;> simp [hproblem]

/-- Nothing is left out exactly if no record has a problem and no key is there twice. -/
theorem problems_ofList_eq_nil_iff {l : List α} :
    (ofList key problem repeated l).problems = [] ↔
      (∀ a ∈ l, problem a = none) ∧ (l.map key).Nodup := by
  induction l using List.reverseRecOn with
  | nil => simp [ofList_nil, empty]
  | append_singleton l x ih =>
    have hfresh : (ofList key problem repeated l).records.get? (key x) = none ↔
        key x ∉ l.map key := by
      simp [get?_ofList_eq_none_iff]
    rw [ofList_append_singleton, List.forall_mem_append, List.forall_mem_singleton,
      List.map_append, List.map_singleton, (List.perm_append_singleton _ _).nodup_iff,
      List.nodup_cons, ← hfresh]
    by_cases hx : problem x = none ∧ (ofList key problem repeated l).records.get? (key x) = none
    · rw [add_eq_of_valid hx.1 hx.2, ih]
      simp [hx]
    · obtain ⟨p, hp⟩ := add_eq_of_not_valid repeated hx
      rw [hp]
      simp only [List.append_eq_nil_iff, List.cons_ne_self, and_false, false_iff]
      rintro ⟨⟨-, hpx⟩, hkx, -⟩
      exact hx ⟨hpx, hkx⟩

omit [Ord κ] [Std.TransOrd κ] [Std.LawfulEqOrd κ] in
/-- Where no key is there twice, all records under a key are the first of them. -/
theorem filter_eq_toList_find? [DecidableEq κ] {l : List α} (h : (l.map key).Nodup) (k : κ) :
    l.filter (key · = k) = (l.find? (key · = k)).toList := by
  induction l with
  | nil => rfl
  | cons a rest ih =>
    obtain ⟨hfresh, hrest⟩ := List.nodup_cons.1 h
    by_cases hk : key a = k
    · subst hk
      rw [List.filter_cons_of_pos (by simp), List.find?_cons_of_pos (by simp)]
      have hnil : rest.filter (key · = key a) = [] := by
        simpa [List.filter_eq_nil_iff] using hfresh
      rw [hnil, Option.toList_some]
    · rw [List.filter_cons_of_neg (by simpa using hk), List.find?_cons_of_neg (by simpa using hk)]
      exact ih hrest

omit [Ord κ] [Std.TransOrd κ] [Std.LawfulEqOrd κ] in
theorem find?_eq_some_iff_mem [DecidableEq κ] {l : List α} (h : (l.map key).Nodup) {k : κ} {a : α} :
    l.find? (key · = k) = some a ↔ a ∈ l ∧ key a = k := by
  rw [← Option.mem_toList, ← filter_eq_toList_find? h k, List.mem_filter, decide_eq_true_iff]

/-- In a side of which nothing is left out, a key stands for the record found under it. -/
theorem get?_ofList_of_problems_eq_nil [DecidableEq κ] {l : List α}
    (h : (ofList key problem repeated l).problems = []) (k : κ) :
    (ofList key problem repeated l).records.get? k = (l.find? (key · = k)).map some := by
  obtain ⟨hproblem, hnodup⟩ := problems_ofList_eq_nil_iff.1 h
  cases hfind : l.find? (key · = k) with
  | none =>
    rw [Option.map_none, get?_ofList_eq_none_iff]
    simpa using List.find?_eq_none.1 hfind
  | some a =>
    rw [Option.map_some, get?_ofList_eq_valid_iff, filter_eq_toList_find? hnodup, hfind]
    exact ⟨rfl, hproblem a (List.mem_of_find?_eq_some hfind)⟩

end Index

end Detection

end Reconciliation
