/-
# Every sound book can be made

What the ledger promises of its books is all that it asks of them.  Any books that keep the promise
are made by one batch, which opens the books one after the other and writes their records as they
are; so a ledger comes to hold exactly the sound books.

* `AccountBooks.Rewrites`: changes that write one book, whatever the others are;
* `AccountBooks.applyAll_script`: a batch that makes given books;
* `LedgerBook.comes_to_hold_sound_books`: what a reachable ledger book can hold.
-/
import Reconciliation.Proofs.Ledger.Soundness

namespace Reconciliation

/-! ## 1. Records that pass their checks -/

theorem Balance.check_of_exact {a : AssetId} {b : Balance} (h : b.Exact) : b.check a = .ok () := by
  obtain ⟨sum, hsum, hsame⟩ := h.adds_up
  have hsign : ¬ (b.free < .zero ∨ b.locked < .zero) := by
    rintro (hlt | hlt)
    · exact Decimal.le_iff_not_lt.1 h.free_nonneg hlt
    · exact Decimal.le_iff_not_lt.1 h.locked_nonneg hlt
  rw [Balance.check, if_neg hsign]
  simp only [bind_eq_ok_iff, amount_eq_ok_iff, ite_throw_eq_ok_iff]
  exact ⟨sum, hsum, fun hnot => hnot hsame, rfl⟩

theorem Position.isFlat_of_held {p : Position} (hquantity : .zero < p.quantity)
    (hside : p.side.isSome = true) : p.isFlat = false := by
  have hzero : p.quantity.isZero = false := by
    rw [Bool.eq_false_iff, ne_eq, Decimal.isZero_iff]
    rw [Decimal.zero_lt_iff] at hquantity
    omega
  rw [isFlat, hzero, Bool.false_or, ← Option.not_isSome, hside, Bool.not_true]

/-! ## 2. Books made of their records -/

namespace AccountBook

variable {b : AccountBook} {e : ExchangeId}

theorem foldl_putBalance (b : AccountBook) (l : List (AssetId × Balance)) :
    l.foldl (fun b x => b.putBalance x.1 x.2) b =
      { b with balances := l.foldl (fun m x => m.insert x.1 x.2) b.balances } :=
  List.foldl_hom (fun m => { b with balances := m }) fun _ _ => rfl

theorem foldl_putOrder (b : AccountBook) (l : List Order) :
    l.foldl putOrder b = { b with orders := l.foldl (fun m o => m.insert o.id o) b.orders } :=
  List.foldl_hom (fun m => { b with orders := m }) fun _ _ => rfl

theorem foldl_putPosition (b : AccountBook) (l : List Position) :
    l.foldl putPosition b =
      { b with positions := l.foldl (fun m p => m.insert p.symbol p) b.positions } :=
  List.foldl_hom (fun m => { b with positions := m }) fun _ _ => rfl

/-- A book whose records know their places is made of them. -/
theorem Sound.foldl_put (hb : b.Sound e) : b.positions.values.foldl putPosition
    (b.orders.values.foldl putOrder
      (b.balances.entries.foldl (fun b x => b.putBalance x.1 x.2) empty)) = b := by
  have hbalances : b.balances.entries.foldl (fun m x => m.insert x.1 x.2) .empty = b.balances :=
    SortedMap.ofList_entries b.balances
  have horders : b.orders.values.foldl (fun m o => m.insert o.id o) .empty = b.orders :=
    SortedMap.foldl_insert_values fun id o hget => (hb.orders id o hget).1
  have hpositions : b.positions.values.foldl (fun m p => m.insert p.symbol p) .empty =
      b.positions :=
    SortedMap.foldl_insert_values fun s p hget => (hb.positions s p hget).1
  rw [foldl_putBalance, foldl_putOrder, foldl_putPosition]
  simp only [empty, hbalances, horders, hpositions]

end AccountBook

namespace AccountBooks

variable {books : AccountBooks} {e : ExchangeId} {f g : AccountBook → AccountBook}
  {ms ms' : List LedgerMutation}

/-! ## 3. Changes that make a book -/

/-- The changes make `f` of the book of the exchange, whatever it is, and touch no other. -/
def Rewrites (e : ExchangeId) (ms : List LedgerMutation) (f : AccountBook → AccountBook) : Prop :=
  ∀ books, applyAll books ms = .ok (onBook books e f)

theorem Rewrites.append (h : Rewrites e ms f) (h' : Rewrites e ms' g) :
    Rewrites e (ms ++ ms') fun b => g (f b) := by
  intro books
  rw [applyAll_append, h books]
  show applyAll (onBook books e f) ms' = _
  rw [h', onBook_onBook]

/-- Changes one by one, each of which makes something of the book. -/
theorem Rewrites.foldl {α : Type} {l : List α} {m : α → LedgerMutation}
    {put : AccountBook → α → AccountBook} (h : Rewrites e ms f)
    (hl : ∀ a ∈ l, Rewrites e [m a] (put · a)) :
    Rewrites e (ms ++ l.map m) fun b => l.foldl put (f b) := by
  induction l generalizing ms f with
  | nil =>
    rw [List.map_nil, List.append_nil]
    exact h
  | cons a rest ih =>
    obtain ⟨ha, hrest⟩ := List.forall_mem_cons.1 hl
    rw [List.map_cons, List.append_cons]
    exact ih (h.append ha) hrest

theorem rewrites_of_apply {m : LedgerMutation}
    (h : ∀ books, apply books m = .ok (onBook books e f)) : Rewrites e [m] f := by
  intro books
  rw [applyAll_cons, h]
  rfl

theorem rewrites_setBalance {a : AssetId} {v : Balance} (hv : v.Exact) :
    Rewrites e [.setBalance e a v] (·.putBalance a v) :=
  rewrites_of_apply fun _ => apply_setBalance_iff.2 ⟨Balance.check_of_exact hv, rfl⟩

theorem rewrites_upsertOrder {o : Order} (hquantity : .zero ≤ o.quantity)
    (hfilled : o.filledQuantity ≤ o.quantity) :
    Rewrites o.exchange [.upsertOrder o] (·.putOrder o) :=
  rewrites_of_apply fun _ =>
    apply_upsertOrder_iff.2 ⟨Order.check_eq_ok_iff.2 ⟨hquantity, hfilled⟩, rfl⟩

theorem rewrites_setPosition {p : Position} (hquantity : .zero < p.quantity)
    (hside : p.side.isSome = true) : Rewrites p.exchange [.setPosition p] (·.putPosition p) := by
  have hnonneg : ¬ p.quantity < .zero := by
    rw [Decimal.zero_lt_iff] at hquantity
    rw [Decimal.lt_zero_iff]
    omega
  refine rewrites_of_apply fun books => apply_setPosition_iff.2 ⟨hnonneg, ?_⟩
  simp only [Position.isFlat_of_held hquantity hside, Bool.false_eq_true, if_false]

/-- A flat position, which opens the book of an exchange and leaves nothing in it. -/
def opener (e : ExchangeId) : LedgerMutation :=
  .setPosition ⟨e, default, none, .zero, none, none, default⟩

theorem rewrites_opener (e : ExchangeId) : Rewrites e [opener e] (·.dropPosition default) := by
  have hzero : ¬ Decimal.zero < Decimal.zero := by decide
  exact rewrites_of_apply fun _ => apply_setPosition_iff.2 ⟨hzero, rfl⟩

/-- The changes that make a book out of nothing. -/
def bookScript (e : ExchangeId) (b : AccountBook) : List LedgerMutation :=
  opener e :: b.balances.entries.map (fun x => .setBalance e x.1 x.2) ++
    b.orders.values.map .upsertOrder ++ b.positions.values.map .setPosition

/-- **The changes of a book are accepted, and make it**, if it is sound. -/
theorem exists_rewrites_bookScript {b : AccountBook} (hb : b.Sound e) :
    ∃ f, Rewrites e (bookScript e b) f ∧ f .empty = b := by
  have hbalances : ∀ x ∈ b.balances.entries,
      Rewrites e [.setBalance e x.1 x.2] (·.putBalance x.1 x.2) := by
    intro x hx
    exact rewrites_setBalance (hb.balances x.1 x.2 (SortedMap.mem_entries_iff.1 hx))
  have horders : ∀ o ∈ b.orders.values, Rewrites e [.upsertOrder o] (·.putOrder o) := by
    intro o ho
    obtain ⟨id, hget⟩ := SortedMap.mem_values_iff.1 ho
    obtain ⟨-, rfl, hquantity, hfilled⟩ := hb.orders id o hget
    exact rewrites_upsertOrder hquantity hfilled
  have hpositions : ∀ p ∈ b.positions.values, Rewrites e [.setPosition p] (·.putPosition p) := by
    intro p hp
    obtain ⟨s, hget⟩ := SortedMap.mem_values_iff.1 hp
    obtain ⟨-, rfl, hquantity, hside⟩ := hb.positions s p hget
    exact rewrites_setPosition hquantity hside
  refine ⟨_, (((rewrites_opener e).foldl hbalances).foldl horders).foldl hpositions, ?_⟩
  exact hb.foldl_put

/-- Books that are made one after the other, in the order of their exchanges. -/
theorem applyAll_bookScripts {l : List (ExchangeId × AccountBook)}
    (hl : l.Pairwise fun x y => compare x.1 y.1 = .lt) (hsound : ∀ x ∈ l, x.2.Sound x.1) :
    applyAll .empty (l.flatMap fun x => bookScript x.1 x.2) = .ok (SortedMap.ofList l) := by
  induction l using List.reverseRecOn with
  | nil => rfl
  | append_singleton l x ih =>
    obtain ⟨hbefore, -, hlast⟩ := List.pairwise_append.1 hl
    obtain ⟨hothers, hx⟩ := List.forall_mem_append.1 hsound
    obtain ⟨f, hf, hmakes⟩ := exists_rewrites_bookScript (hx x List.mem_cons_self)
    -- the exchange comes after all others, so it has no book yet
    have hnew : (SortedMap.ofList l).get? x.1 = none := by
      rw [← SortedMap.contains_eq_false_iff]
      refine SortedMap.contains_eq_false_of_last fun e he => ?_
      rw [SortedMap.entries_ofList hbefore] at he
      exact hlast e he x List.mem_cons_self
    have honBook : onBook (SortedMap.ofList l) x.1 f = SortedMap.ofList (l ++ [x]) := by
      rw [onBook, SortedMap.update, hnew, Option.getD_none, hmakes, SortedMap.ofList_concat]
    rw [List.flatMap_append, List.flatMap_singleton, applyAll_append, ih hbefore hothers]
    exact (hf _).trans (congrArg Except.ok honBook)

/-- The changes that make books out of nothing. -/
def script (books : AccountBooks) : List LedgerMutation :=
  books.entries.flatMap fun x => bookScript x.1 x.2

/-- **Sound books are made by one batch.** -/
theorem applyAll_script (h : Sound books) : applyAll .empty (script books) = .ok books := by
  have hentries : ∀ x ∈ books.entries, x.2.Sound x.1 := fun x hx =>
    h x.1 x.2 (SortedMap.mem_entries_iff.1 hx)
  rw [script, applyAll_bookScripts books.sorted hentries, SortedMap.ofList_entries]

end AccountBooks

/-! ## 4. What a ledger can hold -/

/-- **A ledger comes to hold exactly the sound books.**  In every state that a program can bring a
ledger book to and that it keeps, whatever batches and journals made it: no balance has a negative
part, and its total is the sum of its parts; no order has a negative quantity or is filled beyond
it, and each is kept under its id with its exchange; every position has a side and a quantity
above zero, and is kept under its symbol with its exchange.  And there are no other promises: any
books of this kind are those of some state, as long as the changes that make them can be counted. -/
theorem LedgerBook.comes_to_hold_sound_books :
    (∀ b, Reachable b → ∀ s ∈ b.history, s.books.Sound) ∧
    ∀ books : AccountBooks, books.Sound → books.script.length < wordCount →
      ∃ b, Reachable b ∧ b.latest.books = books := by
  refine ⟨fun b hb => hb.sound, fun books hsound hnumbers => ?_⟩
  obtain ⟨b, hb, hbooks, -⟩ :=
    exists_reachable_of_applyAll (AccountBooks.applyAll_script hsound) hnumbers
  exact ⟨b, hb, hbooks⟩

/-- The books of a deposit are held by a ledger, and are as sound there as all that it holds. -/
theorem LedgerBook.comes_to_hold_deposit :
    let books := AccountBooks.onBook .empty (.of .exchange "paper")
      (·.putBalance (.of .asset "USDT") (.ofFree .one))
    ∃ b, Reachable b ∧ b.latest.books = books ∧ ∀ s ∈ b.history, s.books.Sound := by
  intro books
  have hdeposit : AccountBooks.apply .empty
      (.setBalance (.of .exchange "paper") (.of .asset "USDT") (.ofFree .one)) = .ok books := rfl
  have hsound := AccountBooks.apply_sound AccountBooks.sound_empty hdeposit
  obtain ⟨b, hb, hbooks⟩ := comes_to_hold_sound_books.2 books hsound (by decide)
  exact ⟨b, hb, hbooks, comes_to_hold_sound_books.1 b hb⟩

end Reconciliation
