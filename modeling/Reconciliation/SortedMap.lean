/-
# Finite maps in key order

A map is the list of its entries in strictly increasing key order, so two maps with the same
lookups are the same map, and listing one needs no sorting.

* `get?_insert`, `get?_erase`: what a write changes, and that it changes nothing else;
* `ext_get?`: lookups determine the map;
* `mem_entries_iff`: the entries are exactly the lookups.
-/

namespace Reconciliation

/-- A finite map whose entries are kept in strictly increasing key order. -/
structure SortedMap (κ β : Type) [Ord κ] where
  entries : List (κ × β)
  sorted : entries.Pairwise (fun a b => compare a.1 b.1 = .lt)
  deriving DecidableEq

namespace SortedMap

variable {κ β γ : Type} [Ord κ]

/-! ## 1. Reading -/

/-- The map without entries. -/
def empty : SortedMap κ β := ⟨[], .nil⟩

instance : Inhabited (SortedMap κ β) := ⟨empty⟩

instance : EmptyCollection (SortedMap κ β) := ⟨empty⟩

/-- Looks a key up in a list of entries. -/
def lookup (k : κ) : List (κ × β) → Option β
  | [] => none
  | (k', b) :: rest => if compare k k' = .eq then some b else lookup k rest

def get? (m : SortedMap κ β) (k : κ) : Option β := lookup k m.entries

def contains (m : SortedMap κ β) (k : κ) : Bool := (m.get? k).isSome

def keys (m : SortedMap κ β) : List κ := m.entries.map (·.1)

def values (m : SortedMap κ β) : List β := m.entries.map (·.2)

def size (m : SortedMap κ β) : Nat := m.entries.length

def isEmpty (m : SortedMap κ β) : Bool := m.entries.isEmpty

/-! ## 2. Writing -/

/-- Puts an entry at its place, replacing the one with the same key. -/
def insertEntry (k : κ) (b : β) : List (κ × β) → List (κ × β)
  | [] => [(k, b)]
  | (k', b') :: rest =>
    match compare k k' with
    | .lt => (k, b) :: (k', b') :: rest
    | .eq => (k, b) :: rest
    | .gt => (k', b') :: insertEntry k b rest

/-- Drops the entry of a key. -/
def eraseEntry (k : κ) (l : List (κ × β)) : List (κ × β) :=
  l.filter (fun e => compare k e.1 != .eq)

theorem mem_insertEntry {k : κ} {b : β} {e : κ × β} {l : List (κ × β)}
    (h : e ∈ insertEntry k b l) : e = (k, b) ∨ e ∈ l := by
  induction l with
  | nil => simpa [insertEntry] using h
  | cons hd tl ih =>
    obtain ⟨k', b'⟩ := hd
    simp only [insertEntry] at h
    split at h
    · simpa using h
    · rcases List.mem_cons.1 h with h | h
      · exact .inl h
      · exact .inr (List.mem_cons_of_mem _ h)
    · rcases List.mem_cons.1 h with h | h
      · exact .inr (h ▸ List.mem_cons_self)
      · exact (ih h).imp id (List.mem_cons_of_mem _)

theorem sorted_insertEntry [Std.TransOrd κ] [Std.LawfulEqOrd κ] (k : κ) (b : β)
    {l : List (κ × β)} (h : l.Pairwise (fun a b => compare a.1 b.1 = .lt)) :
    (insertEntry k b l).Pairwise (fun a b => compare a.1 b.1 = .lt) := by
  induction l with
  | nil => simp [insertEntry]
  | cons hd tl ih =>
    obtain ⟨k', b'⟩ := hd
    obtain ⟨hlt, htl⟩ := List.pairwise_cons.1 h
    simp only [insertEntry]
    split
    · rename_i hk
      refine List.pairwise_cons.2 ⟨fun e he => ?_, h⟩
      rcases List.mem_cons.1 he with rfl | he
      · exact hk
      · exact Std.TransCmp.lt_trans hk (hlt e he)
    · rename_i hk
      have hk := Std.LawfulEqOrd.eq_of_compare hk
      subst hk
      exact List.pairwise_cons.2 ⟨hlt, htl⟩
    · rename_i hk
      refine List.pairwise_cons.2 ⟨fun e he => ?_, ih htl⟩
      rcases mem_insertEntry he with rfl | he
      · exact Std.OrientedCmp.lt_of_gt hk
      · exact hlt e he

/-- Adds an entry, or replaces the one with the same key. -/
def insert [Std.TransOrd κ] [Std.LawfulEqOrd κ] (m : SortedMap κ β) (k : κ) (b : β) :
    SortedMap κ β :=
  ⟨insertEntry k b m.entries, sorted_insertEntry k b m.sorted⟩

/-- Removes a key; a key that is not there is no error. -/
def erase (m : SortedMap κ β) (k : κ) : SortedMap κ β :=
  ⟨eraseEntry k m.entries, m.sorted.sublist List.filter_sublist⟩

/-- The value of a key after `f`, with the default for a key that is not there. -/
def update [Std.TransOrd κ] [Std.LawfulEqOrd κ] (m : SortedMap κ β) (k : κ) (default : β)
    (f : β → β) : SortedMap κ β :=
  m.insert k (f ((m.get? k).getD default))

/-- Inserts from left to right: of two entries with one key the later stays. -/
def ofList [Std.TransOrd κ] [Std.LawfulEqOrd κ] (l : List (κ × β)) : SortedMap κ β :=
  l.foldl (fun m e => m.insert e.1 e.2) empty

/-- The same keys with other values. -/
def mapValues (f : κ → β → γ) (m : SortedMap κ β) : SortedMap κ γ :=
  ⟨m.entries.map (fun e => (e.1, f e.1 e.2)), List.pairwise_map.2 m.sorted⟩

/-! ## 3. Lookups determine the map -/

@[simp] theorem get?_empty (k : κ) : (empty : SortedMap κ β).get? k = none := rfl

section Lawful

variable [Std.LawfulEqOrd κ]

theorem lookup_insertEntry (k q : κ) (b : β) (l : List (κ × β)) :
    lookup q (insertEntry k b l) = if compare q k = .eq then some b else lookup q l := by
  induction l with
  | nil => simp [insertEntry, lookup]
  | cons hd tl ih =>
    obtain ⟨k', b'⟩ := hd
    simp only [insertEntry]
    split
    · simp [lookup]
    · rename_i hk
      have hk := Std.LawfulEqOrd.eq_of_compare hk
      subst hk
      by_cases h : compare q k = .eq <;> simp [lookup, h]
    · rename_i hk
      simp only [lookup, ih]
      by_cases h : compare q k = .eq
      · have h := Std.LawfulEqOrd.eq_of_compare h
        subst h
        simp [hk]
      · simp [h]

/-- A write answers its own key and leaves the others alone. -/
theorem get?_insert [Std.TransOrd κ] (m : SortedMap κ β) (k q : κ) (b : β) :
    (m.insert k b).get? q = if compare q k = .eq then some b else m.get? q :=
  lookup_insertEntry k q b m.entries

@[simp] theorem get?_insert_self [Std.TransOrd κ] (m : SortedMap κ β) (k : κ) (b : β) :
    (m.insert k b).get? k = some b := by
  simp [get?_insert]

theorem get?_insert_of_ne [Std.TransOrd κ] (m : SortedMap κ β) {k q : κ} (b : β) (h : q ≠ k) :
    (m.insert k b).get? q = m.get? q := by
  simp [get?_insert, h]

theorem lookup_eraseEntry (k q : κ) (l : List (κ × β)) :
    lookup q (eraseEntry k l) = if compare q k = .eq then none else lookup q l := by
  induction l with
  | nil => simp [eraseEntry, lookup]
  | cons hd tl ih =>
    obtain ⟨k', b'⟩ := hd
    simp only [eraseEntry] at ih
    simp only [eraseEntry, List.filter_cons, lookup]
    by_cases hk : k = k'
    · subst hk
      by_cases hq : compare q k = .eq <;> simp [ih, hq]
    · by_cases hq : q = k'
      · subst hq
        have hqk : q ≠ k := fun e => hk e.symm
        simp [hk, hqk, lookup]
      · simp [hk, hq, lookup, ih]

theorem get?_erase (m : SortedMap κ β) (k q : κ) :
    (m.erase k).get? q = if compare q k = .eq then none else m.get? q :=
  lookup_eraseEntry k q m.entries

theorem lookup_eq_some_iff {l : List (κ × β)}
    (h : l.Pairwise (fun a b => compare a.1 b.1 = .lt)) {k : κ} {b : β} :
    lookup k l = some b ↔ (k, b) ∈ l := by
  induction l with
  | nil => simp [lookup]
  | cons hd tl ih =>
    obtain ⟨k', b'⟩ := hd
    obtain ⟨hlt, htl⟩ := List.pairwise_cons.1 h
    simp only [lookup, List.mem_cons, Prod.mk.injEq]
    by_cases hk : k = k'
    · subst hk
      have hnot : (k, b) ∉ tl := fun hm => by
        have := hlt _ hm
        simp at this
      simp [hnot, eq_comm]
    · simp [hk, ih htl]

/-- An entry is listed exactly when its key finds its value. -/
theorem mem_entries_iff {m : SortedMap κ β} {k : κ} {b : β} :
    (k, b) ∈ m.entries ↔ m.get? k = some b :=
  (lookup_eq_some_iff m.sorted).symm

omit [Std.LawfulEqOrd κ] in
theorem nodup_keys [Std.OrientedOrd κ] (m : SortedMap κ β) : m.keys.Nodup := by
  refine List.pairwise_map.2 (m.sorted.imp ?_)
  intro a b hab heq
  simp [heq] at hab

/-- Maps with the same lookups are equal. -/
theorem ext_get? [Std.TransOrd κ] {m n : SortedMap κ β} (h : ∀ k, m.get? k = n.get? k) : m = n := by
  have hmem : ∀ e, e ∈ m.entries ↔ e ∈ n.entries := fun (k, b) => by
    rw [mem_entries_iff, mem_entries_iff, h]
  have key : ∀ (l l' : List (κ × β)),
      l.Pairwise (fun a b => compare a.1 b.1 = .lt) →
      l'.Pairwise (fun a b => compare a.1 b.1 = .lt) → (∀ e, e ∈ l ↔ e ∈ l') → l = l' := by
    intro l
    induction l with
    | nil =>
      intro l' _ _ hm
      cases l' with
      | nil => rfl
      | cons e t => exact absurd ((hm e).2 List.mem_cons_self) List.not_mem_nil
    | cons a t ih =>
      intro l' hl hl' hm
      cases l' with
      | nil => exact absurd ((hm a).1 List.mem_cons_self) List.not_mem_nil
      | cons a' t' =>
        obtain ⟨hat, ht⟩ := List.pairwise_cons.1 hl
        obtain ⟨hat', ht'⟩ := List.pairwise_cons.1 hl'
        have haa : a = a' := by
          rcases List.mem_cons.1 ((hm a).1 List.mem_cons_self) with e | e
          · exact e
          · rcases List.mem_cons.1 ((hm a').2 List.mem_cons_self) with e' | e'
            · exact e'.symm
            · have h1 := hat' _ e
              have h2 := hat _ e'
              exact absurd (Std.TransCmp.lt_trans h1 h2) (by simp)
        subst haa
        congr 1
        refine ih t' ht ht' fun e => ⟨fun he => ?_, fun he => ?_⟩
        · rcases List.mem_cons.1 ((hm e).1 (List.mem_cons_of_mem _ he)) with h | h
          · subst h; exact absurd (hat _ he) (by simp)
          · exact h
        · rcases List.mem_cons.1 ((hm e).2 (List.mem_cons_of_mem _ he)) with h | h
          · subst h; exact absurd (hat' _ he) (by simp)
          · exact h
  obtain ⟨l, hl⟩ := m
  obtain ⟨l', hl'⟩ := n
  have := key l l' hl hl' hmem
  subst this
  rfl

end Lawful

end SortedMap

/-- A finite set, as the map that gives each member the same value. -/
abbrev SortedSet (κ : Type) [Ord κ] := SortedMap κ Unit

namespace SortedSet

variable {κ : Type} [Ord κ]

def toList (s : SortedSet κ) : List κ := s.keys

def add [Std.TransOrd κ] [Std.LawfulEqOrd κ] (s : SortedSet κ) (k : κ) : SortedSet κ :=
  s.insert k ()

def ofKeys [Std.TransOrd κ] [Std.LawfulEqOrd κ] (l : List κ) : SortedSet κ :=
  l.foldl (fun s k => add s k) SortedMap.empty

end SortedSet

end Reconciliation
