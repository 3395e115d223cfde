/-
# Keys and members of finite maps

What the operations on maps say of keys: which there are, and what values they have after a map
was changed value by value or built from a list.

* `mem_keys_iff`, `mem_values_iff`: keys and values are what lookups find;
* `forall_insert`, `forall_erase`: what holds of every entry, and goes on holding;
* `put_comm`, `insert_comm`: writes to different keys commute;
* `entries_insert_perm`: a new key adds one entry;
* `get?_mapValues`: the lookups of a map with other values;
* `entries_insert_of_last`: a key beyond all others is appended;
* `ofList_entries`, `foldl_insert_values`: a map is made of its entries, or of its values;
* `filter_entries_congr`: maps that agree on some of the keys have the same entries under these;
* `SortedSet.mem_toList_ofKeys`: a set of keys has exactly these members;
* `SortedSet.ofKeys_toList`: a set is made of its members.
-/
import Mathlib.Data.List.Basic
import Mathlib.Data.List.Induction
import Reconciliation.SortedMap

namespace Reconciliation

namespace SortedMap

variable {κ β γ : Type} [Ord κ]

/-! ## 1. Keys and values -/

@[simp] theorem contains_eq_false_iff {m : SortedMap κ β} {k : κ} :
    m.contains k = false ↔ m.get? k = none := by
  simp [contains]

section Lawful

variable [Std.LawfulEqOrd κ]

theorem mem_keys_iff {m : SortedMap κ β} {k : κ} : k ∈ m.keys ↔ ∃ b, m.get? k = some b := by
  simp only [keys, List.mem_map, ← mem_entries_iff]
  constructor
  · rintro ⟨⟨k', b⟩, hmem, rfl⟩
    exact ⟨b, hmem⟩
  · rintro ⟨b, hmem⟩
    exact ⟨(k, b), hmem, rfl⟩

theorem contains_eq_false_iff_notMem {m : SortedMap κ β} {k : κ} :
    m.contains k = false ↔ k ∉ m.keys := by
  rw [contains_eq_false_iff, mem_keys_iff, Option.eq_none_iff_forall_ne_some, not_exists]

theorem mem_keys_insert [Std.TransOrd κ] {m : SortedMap κ β} {b : β} {q : κ} :
    q ∈ (m.insert k b).keys ↔ q = k ∨ q ∈ m.keys := by
  rw [mem_keys_iff, mem_keys_iff]
  by_cases hq : q = k
  · subst hq
    simp
  · rw [get?_insert_of_ne _ _ hq, or_iff_right hq]

theorem mem_values_iff {m : SortedMap κ β} {b : β} : b ∈ m.values ↔ ∃ k, m.get? k = some b := by
  simp only [values, List.mem_map, ← mem_entries_iff]
  constructor
  · rintro ⟨⟨k, b'⟩, hmem, rfl⟩
    exact ⟨k, hmem⟩
  · rintro ⟨k, hmem⟩
    exact ⟨(k, b), hmem, rfl⟩

end Lawful

/-! ## 2. What holds of every entry -/

section Entries

variable [Std.LawfulEqOrd κ] {p : κ → β → Prop} {m : SortedMap κ β} {k : κ}

/-- It still does after a write, if it holds of what is written. -/
theorem forall_insert [Std.TransOrd κ] {b : β} (hm : ∀ q c, m.get? q = some c → p q c)
    (hb : p k b) : ∀ q c, (m.insert k b).get? q = some c → p q c := by
  intro q c h
  by_cases hq : q = k
  · subst hq
    rw [get?_insert_self, Option.some.injEq] at h
    exact h ▸ hb
  · rw [get?_insert_of_ne _ _ hq] at h
    exact hm q c h

theorem forall_erase (hm : ∀ q c, m.get? q = some c → p q c) :
    ∀ q c, (m.erase k).get? q = some c → p q c := by
  intro q c h
  rw [get?_erase] at h
  split at h
  · cases h
  · exact hm q c h

end Entries

/-! ## 3. Writes to different keys -/

/-- A write of any kind: another value for a key, or none. -/
def put [Std.TransOrd κ] [Std.LawfulEqOrd κ] (m : SortedMap κ β) (k : κ) : Option β → SortedMap κ β
  | some b => m.insert k b
  | none => m.erase k

theorem get?_put [Std.TransOrd κ] [Std.LawfulEqOrd κ] (m : SortedMap κ β) (k q : κ)
    (o : Option β) : (m.put k o).get? q = if compare q k = .eq then o else m.get? q := by
  cases o with
  | none => exact get?_erase m k q
  | some b => exact get?_insert m k q b

theorem get?_put_of_ne [Std.TransOrd κ] [Std.LawfulEqOrd κ] (m : SortedMap κ β) {k q : κ}
    (o : Option β) (h : q ≠ k) : (m.put k o).get? q = m.get? q := by
  simp [get?_put, h]

/-- Writes to different keys commute, also those that remove one. -/
theorem put_comm [Std.TransOrd κ] [Std.LawfulEqOrd κ] (m : SortedMap κ β) {k q : κ}
    (o p : Option β) (h : k ≠ q) : (m.put k o).put q p = (m.put q p).put k o := by
  refine ext_get? fun r => ?_
  by_cases hk : r = k
  · subst hk
    simp [get?_put, h]
  · by_cases hq : r = q
    · subst hq
      simp [get?_put, hk]
    · rw [get?_put_of_ne _ _ hq, get?_put_of_ne _ _ hk, get?_put_of_ne _ _ hk,
        get?_put_of_ne _ _ hq]

theorem insert_comm [Std.TransOrd κ] [Std.LawfulEqOrd κ] (m : SortedMap κ β) {k q : κ} (b c : β)
    (h : k ≠ q) : (m.insert k b).insert q c = (m.insert q c).insert k b :=
  m.put_comm (some b) (some c) h

/-! ## 4. Entries under a new key -/

section New

variable {k : κ} {b : β}

theorem insertEntry_perm {l : List (κ × β)} (h : lookup k l = none) :
    (insertEntry k b l).Perm ((k, b) :: l) := by
  induction l with
  | nil => exact .refl _
  | cons e rest ih =>
    obtain ⟨k', b'⟩ := e
    rw [lookup] at h
    rw [insertEntry]
    cases hk : compare k k' with
    | lt => exact .refl _
    | eq =>
      rw [if_pos hk] at h
      cases h
    | gt =>
      rw [if_neg (by simp [hk])] at h
      exact ((ih h).cons _).trans (.swap ..)

variable [Std.TransOrd κ] [Std.LawfulEqOrd κ] {m : SortedMap κ β}

theorem entries_insert_perm (h : m.contains k = false) :
    (m.insert k b).entries.Perm ((k, b) :: m.entries) :=
  insertEntry_perm (contains_eq_false_iff.1 h)

theorem keys_insert_perm (h : m.contains k = false) : (m.insert k b).keys.Perm (k :: m.keys) :=
  (entries_insert_perm h).map _

theorem values_insert_perm (h : m.contains k = false) :
    (m.insert k b).values.Perm (b :: m.values) :=
  (entries_insert_perm h).map _

end New

/-! ## 5. Other values -/

theorem lookup_map (f : κ → β → γ) [Std.LawfulEqOrd κ] (k : κ) (l : List (κ × β)) :
    lookup k (l.map fun e => (e.1, f e.1 e.2)) = (lookup k l).map (f k) := by
  induction l with
  | nil => rfl
  | cons e rest ih =>
    obtain ⟨k', b⟩ := e
    simp only [List.map_cons, lookup]
    split
    · rename_i h
      rw [Std.LawfulEqOrd.eq_of_compare h, Option.map_some]
    · exact ih

@[simp] theorem get?_mapValues [Std.LawfulEqOrd κ] (f : κ → β → γ) (m : SortedMap κ β) (k : κ) :
    (m.mapValues f).get? k = (m.get? k).map (f k) :=
  lookup_map f k m.entries

/-! ## 6. A key beyond all others -/

section Last

variable [Std.TransOrd κ] [Std.LawfulEqOrd κ] {k : κ}

omit [Std.LawfulEqOrd κ] in
theorem insertEntry_of_last {b : β} {l : List (κ × β)} (h : ∀ e ∈ l, compare e.1 k = .lt) :
    insertEntry k b l = l ++ [(k, b)] := by
  induction l with
  | nil => rfl
  | cons e rest ih =>
    obtain ⟨k', b'⟩ := e
    have hgt : compare k k' = .gt := Std.OrientedCmp.gt_of_lt (h (k', b') List.mem_cons_self)
    rw [insertEntry, hgt, ih fun e he => h e (List.mem_cons_of_mem _ he), List.cons_append]

/-- It is listed last. -/
theorem entries_insert_of_last {m : SortedMap κ β} {b : β}
    (h : ∀ e ∈ m.entries, compare e.1 k = .lt) :
    (m.insert k b).entries = m.entries ++ [(k, b)] := insertEntry_of_last h

omit [Std.TransOrd κ] in
/-- It is new. -/
theorem contains_eq_false_of_last {m : SortedMap κ β} (h : ∀ e ∈ m.entries, compare e.1 k = .lt) :
    m.contains k = false := by
  rw [contains_eq_false_iff, Option.eq_none_iff_forall_ne_some]
  intro b hb
  have := h (k, b) (mem_entries_iff.2 hb)
  simp at this

theorem ofList_concat (l : List (κ × β)) (e : κ × β) :
    ofList (l ++ [e]) = (ofList l).insert e.1 e.2 := by
  rw [ofList, List.foldl_append]
  rfl

/-- A list that is sorted already lists the map that is made of it. -/
theorem entries_ofList {l : List (κ × β)} (h : l.Pairwise fun a b => compare a.1 b.1 = .lt) :
    (ofList l).entries = l := by
  induction l using List.reverseRecOn with
  | nil => rfl
  | append_singleton l e ih =>
    obtain ⟨hl, -, hlast⟩ := List.pairwise_append.1 h
    have hentries : (ofList l).entries = l := ih hl
    have hbeyond : ∀ e' ∈ (ofList l).entries, compare e'.1 e.1 = .lt := by
      intro e' he'
      rw [hentries] at he'
      exact hlast e' he' e (List.mem_singleton.2 rfl)
    rw [ofList_concat, entries_insert_of_last hbeyond, hentries]

/-- A map is made of its entries. -/
theorem ofList_entries (m : SortedMap κ β) : ofList m.entries = m := by
  have hentries := entries_ofList m.sorted
  obtain ⟨l, hl⟩ := m
  generalize ofList l = n at hentries
  obtain ⟨l', hl'⟩ := n
  obtain rfl : l' = l := hentries
  rfl

/-- Values that know their keys make up the map that keeps each of them under its key. -/
theorem foldl_insert_values {m : SortedMap κ β} {key : β → κ}
    (h : ∀ k b, m.get? k = some b → key b = k) :
    m.values.foldl (fun n b => n.insert (key b) b) .empty = m := by
  have hkeys : ∀ n : SortedMap κ β, ∀ e ∈ m.entries, n.insert (key e.2) e.2 = n.insert e.1 e.2 := by
    intro n e he
    rw [h e.1 e.2 (mem_entries_iff.1 he)]
  rw [values, List.foldl_map, List.foldl_ext _ _ _ hkeys]
  exact ofList_entries m

end Last

/-! ## 7. Some of the keys -/

/-- The entries under some of the keys. -/
def filterKeys (p : κ → Bool) (m : SortedMap κ β) : SortedMap κ β :=
  ⟨m.entries.filter fun e => p e.1, m.sorted.filter _⟩

section FilterKeys

variable [Std.LawfulEqOrd κ] {p : κ → Bool} {m n : SortedMap κ β}

theorem get?_filterKeys (k : κ) : (m.filterKeys p).get? k = if p k then m.get? k else none := by
  refine Option.ext fun b => ?_
  rw [← mem_entries_iff, filterKeys, List.mem_filter, mem_entries_iff]
  split <;> rename_i hk <;> simp [hk]

/-- Maps that agree on some of the keys have the same entries under these. -/
theorem filter_entries_congr [Std.TransOrd κ] (h : ∀ k, p k → m.get? k = n.get? k) :
    (m.entries.filter fun e => p e.1) = n.entries.filter fun e => p e.1 := by
  have heq : m.filterKeys p = n.filterKeys p := ext_get? fun k => by
    rw [get?_filterKeys, get?_filterKeys]
    split
    · rename_i hk
      exact h k hk
    · rfl
  exact congrArg entries heq

end FilterKeys

end SortedMap

/-! ## 8. Sets of keys -/

namespace SortedSet

variable {κ : Type} [Ord κ] [Std.TransOrd κ] [Std.LawfulEqOrd κ]

theorem mem_toList_add {s : SortedSet κ} {k q : κ} :
    q ∈ (add s k).toList ↔ q = k ∨ q ∈ s.toList := by
  simp only [toList, SortedMap.mem_keys_iff, add]
  by_cases h : q = k
  · subst h
    simp
  · simp [SortedMap.get?_insert_of_ne, h]

omit [Std.TransOrd κ] in
theorem mem_toList_erase {s : SortedSet κ} {k q : κ} :
    q ∈ toList (SortedMap.erase s k) ↔ q ≠ k ∧ q ∈ s.toList := by
  simp only [toList, SortedMap.mem_keys_iff, SortedMap.get?_erase]
  by_cases h : q = k
  · subst h
    simp
  · simp [h]

theorem mem_toList_ofKeys {l : List κ} {k : κ} : k ∈ (ofKeys l).toList ↔ k ∈ l := by
  suffices h : ∀ s : SortedSet κ, k ∈ (l.foldl (fun s k => add s k) s).toList ↔
      k ∈ l ∨ k ∈ s.toList by
    have hempty : k ∉ toList (κ := κ) SortedMap.empty := List.not_mem_nil
    exact (h _).trans (or_iff_left hempty)
  induction l with
  | nil => simp
  | cons a rest ih =>
    intro s
    rw [List.foldl_cons, ih, mem_toList_add, List.mem_cons]
    grind

omit [Std.TransOrd κ] in
theorem get?_eq_some_iff_mem {s : SortedSet κ} {k : κ} : s.get? k = some () ↔ k ∈ s.toList := by
  rw [toList, SortedMap.mem_keys_iff]
  exact ⟨fun h => ⟨(), h⟩, fun ⟨_, h⟩ => h⟩

/-- Sets that agree on some of the keys list these alike. -/
theorem filter_toList_congr {p : κ → Bool} {s s' : SortedSet κ}
    (h : ∀ k, p k → (k ∈ s.toList ↔ k ∈ s'.toList)) : s.toList.filter p = s'.toList.filter p := by
  have hget : ∀ k, p k → s.get? k = s'.get? k := fun k hk =>
    Option.ext fun _ => get?_eq_some_iff_mem.trans ((h k hk).trans get?_eq_some_iff_mem.symm)
  have hentries := SortedMap.filter_entries_congr hget
  simp only [toList, SortedMap.keys, List.filter_map, Function.comp_def, hentries]

/-- A set is made of its members. -/
theorem ofKeys_toList (s : SortedSet κ) : ofKeys s.toList = s := by
  rw [ofKeys, toList, SortedMap.keys, List.foldl_map]
  exact SortedMap.ofList_entries s

end SortedSet

end Reconciliation
