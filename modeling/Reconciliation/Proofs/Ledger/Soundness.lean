/-
# What is true of every book

The ledger checks the changes that it is given, one by one and each only against the slot that it
writes.  That is enough for the whole: no book of the ledger, in any state that it has ever been
in, holds a record that contradicts itself or is kept in the wrong place.

* `AccountBook.Sound`, `AccountBooks.Sound`: the invariant;
* `apply_sound`: every kind of change keeps it;
* `LedgerBook.Reachable.sound`: it holds in every state that any reachable ledger book retains.
-/
import Reconciliation.Proofs.Ledger.Posting
import Reconciliation.Proofs.Numeric.Decimal
import Reconciliation.Proofs.SortedMap

namespace Reconciliation

/-! ## 1. The invariant -/

/-- The parts are not negative and make up the total, to the last digit. -/
structure Balance.Exact (b : Balance) : Prop where
  free_nonneg : .zero ≤ b.free
  locked_nonneg : .zero ≤ b.locked
  adds_up : ∃ sum, b.free.add b.locked = .ok sum ∧ b.total.Same sum

/-- The book of the exchange `e` holds only records of that exchange, each where its own key says
and none contradicting itself. -/
structure AccountBook.Sound (e : ExchangeId) (b : AccountBook) : Prop where
  balances : ∀ a v, b.balances.get? a = some v → v.Exact
  orders : ∀ id o, b.orders.get? id = some o →
    o.id = id ∧ o.exchange = e ∧ .zero ≤ o.quantity ∧ o.filledQuantity ≤ o.quantity
  positions : ∀ s p, b.positions.get? s = some p →
    p.symbol = s ∧ p.exchange = e ∧ .zero < p.quantity ∧ p.side.isSome = true

/-- Every book is sound for its exchange. -/
def AccountBooks.Sound (books : AccountBooks) : Prop :=
  ∀ e b, books.get? e = some b → b.Sound e

/-! ## 2. One book -/

theorem Balance.exact_of_check {a : AssetId} {b : Balance} (h : b.check a = .ok ()) : b.Exact := by
  unfold Balance.check at h
  split at h
  · simp at h
  rename_i hsign
  simp only [bind_eq_ok_iff, amount_eq_ok_iff, ite_throw_eq_ok_iff] at h
  obtain ⟨sum, hsum, hsame, -⟩ := h
  exact {
    free_nonneg := Decimal.le_iff_not_lt.2 fun hlt => hsign (.inl hlt)
    locked_nonneg := Decimal.le_iff_not_lt.2 fun hlt => hsign (.inr hlt)
    adds_up := ⟨sum, hsum, Decidable.not_not.1 hsame⟩ }

theorem Order.check_eq_ok_iff {o : Order} :
    o.check = .ok () ↔ .zero ≤ o.quantity ∧ o.filledQuantity ≤ o.quantity := by
  simp [Order.check, Decimal.le_iff_not_lt]

namespace AccountBook

variable {e : ExchangeId} {b : AccountBook}

theorem sound_empty (e : ExchangeId) : AccountBook.empty.Sound e where
  balances _ _ h := nomatch h
  orders _ _ h := nomatch h
  positions _ _ h := nomatch h

theorem sound_putBalance (hb : b.Sound e) {a : AssetId} {v : Balance} (hv : v.Exact) :
    (b.putBalance a v).Sound e :=
  { hb with balances := SortedMap.forall_insert hb.balances hv }

theorem sound_putOrder {o : Order} (hb : b.Sound o.exchange) (hquantity : .zero ≤ o.quantity)
    (hfilled : o.filledQuantity ≤ o.quantity) : (b.putOrder o).Sound o.exchange :=
  { hb with orders := SortedMap.forall_insert hb.orders ⟨rfl, rfl, hquantity, hfilled⟩ }

theorem sound_dropOrder (hb : b.Sound e) (id : OrderId) : (b.dropOrder id).Sound e :=
  { hb with orders := SortedMap.forall_erase hb.orders }

theorem sound_putPosition {p : Position} (hb : b.Sound p.exchange) (hquantity : .zero < p.quantity)
    (hside : p.side.isSome = true) : (b.putPosition p).Sound p.exchange :=
  { hb with positions := SortedMap.forall_insert hb.positions ⟨rfl, rfl, hquantity, hside⟩ }

theorem sound_dropPosition (hb : b.Sound e) (s : Symbol) : (b.dropPosition s).Sound e :=
  { hb with positions := SortedMap.forall_erase hb.positions }

end AccountBook

/-- What is neither negative nor flat is held. -/
theorem Position.held_of_not_isFlat {p : Position} (hquantity : ¬ p.quantity < .zero)
    (hflat : p.isFlat = false) : .zero < p.quantity ∧ p.side.isSome = true := by
  obtain ⟨hzero, hside⟩ : p.quantity.isZero = false ∧ p.side.isNone = false := by
    simpa [isFlat] using hflat
  refine ⟨?_, by simpa using hside⟩
  rw [Decimal.lt_zero_iff] at hquantity
  have hne : p.quantity.coefficient ≠ 0 := fun h => by
    simp [Decimal.isZero_iff.2 h] at hzero
  rw [Decimal.zero_lt_iff]
  omega

/-! ## 3. All books -/

namespace AccountBooks

variable {books books' : AccountBooks}

theorem sound_empty : Sound .empty := fun _ _ h => nomatch h

/-- The book of an exchange is sound, also where there is none. -/
theorem Sound.book (h : Sound books) (e : ExchangeId) : (book books e).Sound e := by
  unfold AccountBooks.book
  cases hget : books.get? e with
  | none => exact AccountBook.sound_empty e
  | some b => exact h e b hget

theorem Sound.onBook (h : Sound books) {e : ExchangeId} {f : AccountBook → AccountBook}
    (hf : (AccountBooks.book books e).Sound e → (f (AccountBooks.book books e)).Sound e) :
    Sound (onBook books e f) := by
  intro e' b hget
  by_cases he : e' = e
  · subst he
    rw [get?_onBook_self, Option.some.injEq] at hget
    exact hget ▸ hf (h.book e')
  · rw [get?_onBook_of_ne _ _ he] at hget
    exact h e' b hget

/-- **Every kind of change leaves sound books sound.** -/
theorem apply_sound {m : LedgerMutation} (h : Sound books) (happly : apply books m = .ok books') :
    Sound books' := by
  cases m with
  | setBalance e a v =>
    obtain ⟨hcheck, rfl⟩ := apply_setBalance_iff.1 happly
    exact h.onBook fun hb => AccountBook.sound_putBalance hb (Balance.exact_of_check hcheck)
  | adjustBalance e a freeDelta lockedDelta =>
    obtain ⟨next, -, hcheck, rfl⟩ := apply_adjustBalance_iff.1 happly
    exact h.onBook fun hb => AccountBook.sound_putBalance hb (Balance.exact_of_check hcheck)
  | upsertOrder o =>
    obtain ⟨hcheck, rfl⟩ := apply_upsertOrder_iff.1 happly
    obtain ⟨hquantity, hfilled⟩ := Order.check_eq_ok_iff.1 hcheck
    exact h.onBook fun hb => AccountBook.sound_putOrder hb hquantity hfilled
  | removeOrder e id =>
    obtain ⟨-, rfl⟩ := apply_removeOrder_iff.1 happly
    exact h.onBook fun hb => AccountBook.sound_dropOrder hb id
  | setPosition p =>
    obtain ⟨hquantity, rfl⟩ := apply_setPosition_iff.1 happly
    refine h.onBook fun hb => ?_
    split
    · exact AccountBook.sound_dropPosition hb p.symbol
    · rename_i hflat
      obtain ⟨hpos, hside⟩ := Position.held_of_not_isFlat hquantity (by simpa using hflat)
      exact AccountBook.sound_putPosition hb hpos hside
  | closePosition e s =>
    rw [apply_closePosition, Except.ok.injEq] at happly
    subst happly
    split
    · exact h.onBook fun hb => AccountBook.sound_dropPosition hb s
    · exact h

theorem applyAll_sound {mutations : List LedgerMutation} (h : Sound books)
    (happly : applyAll books mutations = .ok books') : Sound books' := by
  induction mutations generalizing books with
  | nil =>
    cases happly
    exact h
  | cons m rest ih =>
    rw [applyAll_cons, bind_eq_ok_iff] at happly
    obtain ⟨books₁, hm, hrest⟩ := happly
    exact ih (apply_sound h hm) hrest

end AccountBooks

/-! ## 4. All states of a ledger book -/

namespace LedgerBook

/-- The books that a program can come to have: one is opened empty or from a journal, is posted
batches, is stopped and started, and its journal may fail and recover. -/
inductive Reachable : LedgerBook → Prop
  | fresh (settings : LedgerSettings) (now : Instant) : Reachable (fresh settings now)
  | replayed {settings : LedgerSettings} {now : Instant} {journal : Journal} {b : LedgerBook} :
      replay settings now journal = .ok b → Reachable b
  | posted {b b' : LedgerBook} {now : Instant} {mutations : List LedgerMutation}
      {reference : String} {ids : Nat → Uuid} {s : LedgerState} :
      Reachable b → (post now mutations reference ids).run b = .ok s b' → Reachable b'
  | refused {b b' : LedgerBook} {now : Instant} {mutations : List LedgerMutation}
      {reference : String} {ids : Nat → Uuid} {err : LedgerError} :
      Reachable b → (post now mutations reference ids).run b = .error err b' → Reachable b'
  | switched {b : LedgerBook} (running : Bool) : Reachable b → Reachable (b.setRunning running)
  | faulty {b : LedgerBook} {j : Journal} (appendFault latestFault : Option StorageFault) :
      Reachable b → b.journal = some j →
      Reachable { b with journal := some { j with appendFault, latestFault } }

variable {b b' : LedgerBook} {now : Instant} {mutations : List LedgerMutation}
  {reference : String} {ids : Nat → Uuid} {s s' : LedgerState}

/-- The states after a post are the new one and some of the states before. -/
theorem Posted.mem_history (h : Posted b now mutations reference ids s b')
    (hs : s' ∈ b'.history) : s' = s ∨ s' ∈ b.history := by
  cases h with
  | nothing => exact .inr hs
  | published =>
    rcases List.mem_cons.1 hs with rfl | hmem
    · exact .inl rfl
    · exact .inr (List.mem_of_mem_take hmem)

/-- The state that answers a batch is as sound as those before it. -/
theorem Posted.sound (h : Posted b now mutations reference ids s b')
    (hb : ∀ s ∈ b.history, s.books.Sound) : s.books.Sound := by
  cases h with
  | nothing => exact hb _ List.mem_cons_self
  | published htaken => exact AccountBooks.applyAll_sound (hb _ List.mem_cons_self) htaken.books

theorem foldlM_replayRecord_sound {books books' : AccountBooks} {records : List JournalRecord}
    (h : books.Sound) (hreplay : records.foldlM replayRecord books = .ok books') :
    books'.Sound := by
  induction records generalizing books with
  | nil =>
    cases hreplay
    exact h
  | cons r rest ih =>
    rw [List.foldlM_cons, bind_eq_ok_iff] at hreplay
    obtain ⟨books₁, hr, hrest⟩ := hreplay
    exact ih (AccountBooks.apply_sound h (mapError_eq_ok_iff.1 hr)) hrest

theorem replayState_sound {records : List JournalRecord}
    (h : replayState now records = .ok s) : s.books.Sound := by
  unfold replayState at h
  split at h
  · cases h
    exact AccountBooks.sound_empty
  · simp only [bind_eq_ok_iff, pure_eq_ok_iff] at h
    obtain ⟨books, hbooks, rfl⟩ := h
    exact foldlM_replayRecord_sound AccountBooks.sound_empty hbooks

/-- **In every state that a reachable ledger book retains, every book is sound.** -/
theorem Reachable.sound (h : Reachable b) : ∀ s ∈ b.history, s.books.Sound := by
  induction h with
  | fresh settings now =>
    intro s hs
    rw [List.mem_singleton.1 hs]
    exact AccountBooks.sound_empty
  | replayed hreplay =>
    simp only [replay, bind_eq_ok_iff, pure_eq_ok_iff] at hreplay
    obtain ⟨records, -, state, hstate, last, -, rfl⟩ := hreplay
    intro s hs
    rw [List.mem_singleton.1 hs]
    exact replayState_sound hstate
  | posted _ hrun ih =>
    have hposted := run_post_ok_iff.1 hrun
    intro s' hs
    rcases hposted.mem_history hs with rfl | hmem
    · exact hposted.sound ih
    · exact ih s' hmem
  | refused _ hrun ih =>
    rw [eq_of_error hrun]
    exact ih
  | switched running _ ih => exact ih
  | faulty appendFault latestFault _ _ ih => exact ih

/-- A batch for a new book without a journal, with numbers for all of its changes. -/
theorem taken_fresh {settings : LedgerSettings} {start : Instant} {books : AccountBooks}
    (hne : mutations ≠ []) (h : AccountBooks.applyAll .empty mutations = .ok books)
    (hnumbers : mutations.length < wordCount) :
    Taken (.fresh settings start) now mutations reference ids books none where
  running := rfl
  changes := hne
  books := h
  numbers := (Nat.zero_add mutations.length).symm ▸ hnumbers
  journal := rfl

/-- What a batch makes of nothing is held by a ledger book, which is running, has no journal, and
has counted one version at most and the changes of the batch. -/
theorem exists_reachable_of_applyAll {books : AccountBooks}
    (h : AccountBooks.applyAll .empty mutations = .ok books)
    (hnumbers : mutations.length < wordCount) :
    ∃ b, Reachable b ∧ b.latest.books = books ∧ b.running = true ∧ b.journal = none ∧
      b.latest.version ≤ 1 ∧ b.lastSequence = mutations.length := by
  by_cases hnil : mutations = []
  · subst hnil
    obtain rfl : SortedMap.empty = books := Except.ok.inj h
    exact ⟨fresh default default, .fresh default default, rfl, rfl, rfl, Nat.zero_le 1, rfl⟩
  · have hposted : Posted (fresh default default) default mutations "" (.stamped 0) _ _ :=
      .published (taken_fresh hnil h hnumbers) (by decide)
    exact ⟨_, .posted (.fresh default default) (run_post_ok_iff.2 hposted), rfl, rfl, rfl,
      Nat.le_refl 1, Nat.zero_add _⟩

end LedgerBook

end Reconciliation
