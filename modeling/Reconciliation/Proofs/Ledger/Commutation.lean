/-
# Changes to different slots commute

A change looks at one slot of one exchange's book to decide whether it is accepted and what it
writes, and it writes only there.  Apart from that it may open the book.  So changes to different
slots neither see nor touch what the others write, and a batch of such changes is accepted in every
order or in none, with the same books in the end.

Kinds differ in two ways that could have spoiled this.  Closing a position opens no book, which is
harmless because a book that is opened has no positions; and dropping an order is refused where
there is no book, which no change to another slot can alter.

* `AccountBook.Edit`, `LedgerMutation.edit`: what a change writes into a book;
* `AccountBooks.apply_eq_ok_iff_edit`: a change is its edit of the book of its exchange;
* `AccountBooks.applyAll_comm`, `AccountBooks.applyAll_perm`: two changes, and a batch;
* `LedgerBook.posts_in_any_order`: posting a batch.
-/
import Reconciliation.Proofs.Ledger.Appending
import Reconciliation.Proofs.Ledger.Posting

namespace Reconciliation

/-! ## 1. Slots of a book -/

namespace AccountBook

/-- A place in the book of an exchange. -/
inductive Slot
  | balance (asset : AssetId)
  | order (id : OrderId)
  | position (symbol : Symbol)
  deriving DecidableEq

/-- A slot of a book, and what it holds from now on. -/
inductive Edit
  | balance (asset : AssetId) (value : Option Balance)
  | order (id : OrderId) (value : Option Order)
  | position (symbol : Symbol) (value : Option Position)

namespace Edit

def slot : Edit → Slot
  | .balance a _ => .balance a
  | .order id _ => .order id
  | .position s _ => .position s

def run : Edit → AccountBook → AccountBook
  | .balance a v, b => { b with balances := b.balances.put a v }
  | .order id o, b => { b with orders := b.orders.put id o }
  | .position s p, b => { b with positions := b.positions.put s p }

variable {x y : Edit} {b : AccountBook}

/-- Edits of different slots commute. -/
theorem run_comm (h : x.slot ≠ y.slot) (b : AccountBook) : x.run (y.run b) = y.run (x.run b) := by
  cases x <;> cases y
  case balance.balance a v a' v' =>
    have hne : a' ≠ a := fun heq => h (by rw [slot, slot, heq])
    simp only [run, b.balances.put_comm v' v hne]
  case order.order id o id' o' =>
    have hne : id' ≠ id := fun heq => h (by rw [slot, slot, heq])
    simp only [run, b.orders.put_comm o' o hne]
  case position.position s p s' p' =>
    have hne : s' ≠ s := fun heq => h (by rw [slot, slot, heq])
    simp only [run, b.positions.put_comm p' p hne]
  all_goals rfl

/-- An edit of another slot leaves a balance as it is. -/
theorem balance_run {a : AssetId} (h : x.slot ≠ .balance a) :
    (x.run b).balance a = b.balance a := by
  cases x with
  | balance a' v =>
    have hne : a ≠ a' := fun heq => h (by rw [slot, heq])
    simp only [run, AccountBook.balance, SortedMap.get?_put_of_ne _ _ hne]
  | order => rfl
  | position => rfl

/-- An edit of another slot neither adds an order nor takes it away. -/
theorem contains_run {id : OrderId} (h : x.slot ≠ .order id) :
    (x.run b).orders.contains id = b.orders.contains id := by
  cases x with
  | balance => rfl
  | order id' o =>
    have hne : id ≠ id' := fun heq => h (by rw [slot, heq])
    simp only [run, SortedMap.contains, SortedMap.get?_put_of_ne _ _ hne]
  | position => rfl

/-- An edit where there may be no book.  Only some edits open one. -/
def runOn (opens : Bool) (x : Edit) : Option AccountBook → Option AccountBook
  | some b => some (x.run b)
  | none => if opens then some (x.run .empty) else none

/-- They commute as well, if those that open no book would leave an empty one empty. -/
theorem runOn_comm {o o' : Bool} (h : x.slot ≠ y.slot) (hx : o = false → x.run .empty = .empty)
    (hy : o' = false → y.run .empty = .empty) (b : Option AccountBook) :
    x.runOn o (y.runOn o' b) = y.runOn o' (x.runOn o b) := by
  cases b with
  | some b => simp only [runOn, run_comm h b]
  | none =>
    have hcomm := run_comm h .empty
    cases o <;> cases o' <;> simp only [runOn, if_true, Bool.false_eq_true, if_false]
    case false.true => rw [hcomm, hx rfl]
    case true.false => rw [← hcomm, hy rfl]
    case true.true => rw [hcomm]

end Edit

end AccountBook

/-! ## 2. What a change writes -/

namespace LedgerMutation

/-- The slot that a change is about, in the book of its exchange. -/
def bookSlot : LedgerMutation → AccountBook.Slot
  | .setBalance _ a _ => .balance a
  | .adjustBalance _ a _ _ => .balance a
  | .upsertOrder o => .order o.id
  | .removeOrder _ id => .order id
  | .setPosition p => .position p.symbol
  | .closePosition _ s => .position s

/-- The slot that a change is about, among those of all books. -/
def slot (m : LedgerMutation) : ExchangeId × AccountBook.Slot := (m.exchange, m.bookSlot)

/-- Whether a change opens the book of its exchange. -/
def opens : LedgerMutation → Bool
  | .closePosition .. => false
  | _ => true

/-- What a change writes into a book, if the book accepts it. -/
def edit (b : AccountBook) : LedgerMutation → Except LedgerError AccountBook.Edit
  | .setBalance _ a v => do
    v.check a
    return .balance a (some v)
  | .adjustBalance _ a freeDelta lockedDelta => do
    let next ← (b.balance a).adjust freeDelta lockedDelta
    next.check a
    return .balance a (some next)
  | .upsertOrder o => do
    o.check
    return .order o.id (some o)
  | .removeOrder e id =>
    if b.orders.contains id then return .order id none
    else throw (.invalid (.untrackedOrder id e))
  | .setPosition p =>
    if p.quantity < .zero then throw (.invalid (.negativePosition p.symbol p.quantity))
    else return .position p.symbol (if p.isFlat then none else some p)
  | .closePosition _ s => return .position s none

variable {m : LedgerMutation} {b : AccountBook} {x : AccountBook.Edit}

/-- It writes its own slot. -/
theorem slot_of_edit (h : m.edit b = .ok x) : x.slot = m.bookSlot := by
  cases m <;> simp only [edit, bind_eq_ok_iff, pure_eq_ok_iff, ite_throw_eq_ok_iff] at h
  case setBalance =>
    obtain ⟨-, -, rfl⟩ := h
    rfl
  case adjustBalance =>
    obtain ⟨next, -, -, -, rfl⟩ := h
    rfl
  case upsertOrder =>
    obtain ⟨-, -, rfl⟩ := h
    rfl
  case removeOrder =>
    split at h
    · cases h
      rfl
    · cases h
  case setPosition =>
    obtain ⟨-, rfl⟩ := h
    rfl
  case closePosition =>
    subst h
    rfl

/-- What it writes depends on its own slot alone. -/
theorem edit_run (h : x.slot ≠ m.bookSlot) : m.edit (x.run b) = m.edit b := by
  cases m with
  | adjustBalance e a freeDelta lockedDelta => rw [edit, edit, AccountBook.Edit.balance_run h]
  | removeOrder e id => rw [edit, edit, AccountBook.Edit.contains_run h]
  | _ => rfl

/-- Whether there is a book to write to does not matter either. -/
theorem edit_runOn {o : Bool} (h : x.slot ≠ m.bookSlot) (b : Option AccountBook) :
    m.edit ((x.runOn o b).getD .empty) = m.edit (b.getD .empty) := by
  cases b with
  | some b => exact edit_run h
  | none =>
    cases o with
    | true => exact edit_run h
    | false => rfl

/-- A change that opens no book leaves an empty one empty. -/
theorem run_empty_of_edit (h : m.edit b = .ok x) (hopens : m.opens = false) :
    x.run .empty = .empty := by
  cases m with
  | closePosition e s =>
    cases h
    rfl
  | _ => cases hopens

end LedgerMutation

/-! ## 3. Changes to all books -/

namespace AccountBooks

open AccountBook (Edit)

variable {books books' : AccountBooks} {m m' : LedgerMutation}

/-- An edit of the book of an exchange, which is opened or not if there is none. -/
def write (books : AccountBooks) (e : ExchangeId) (opens : Bool) (x : Edit) : AccountBooks :=
  if opens || books.contains e then onBook books e x.run else books

theorem get?_write_self (books : AccountBooks) (e : ExchangeId) (opens : Bool) (x : Edit) :
    (write books e opens x).get? e = x.runOn opens (books.get? e) := by
  unfold write SortedMap.contains
  cases h : books.get? e with
  | some b =>
    simp only [Option.isSome_some, Bool.or_true, if_true, get?_onBook_self, book, h,
      Option.getD_some, Edit.runOn]
  | none =>
    cases opens with
    | true => simp [get?_onBook_self, book, h, Edit.runOn]
    | false => simp [h, Edit.runOn]

theorem get?_write_of_ne (books : AccountBooks) {e e' : ExchangeId} (opens : Bool) (x : Edit)
    (h : e' ≠ e) : (write books e opens x).get? e' = books.get? e' := by
  unfold write
  split
  · exact get?_onBook_of_ne books _ h
  · rfl

/-- **A change is its edit of the book of its exchange.** -/
theorem apply_eq_ok_iff_edit : apply books m = .ok books' ↔
    ∃ x, m.edit (book books m.exchange) = .ok x ∧ write books m.exchange m.opens x = books' := by
  cases m with
  | setBalance e a v =>
    rw [apply_setBalance_iff]
    simp only [LedgerMutation.edit, bind_eq_ok_iff, pure_eq_ok_iff, exists_passed_iff]
    constructor
    · rintro ⟨hcheck, rfl⟩
      exact ⟨_, ⟨hcheck, rfl⟩, rfl⟩
    · rintro ⟨x, ⟨hcheck, rfl⟩, rfl⟩
      exact ⟨hcheck, rfl⟩
  | adjustBalance e a freeDelta lockedDelta =>
    rw [apply_adjustBalance_iff]
    simp only [LedgerMutation.edit, bind_eq_ok_iff, pure_eq_ok_iff, exists_passed_iff,
      amount_eq_ok_iff]
    constructor
    · rintro ⟨next, hadjust, hcheck, rfl⟩
      exact ⟨_, ⟨next, hadjust, hcheck, rfl⟩, rfl⟩
    · rintro ⟨x, ⟨next, hadjust, hcheck, rfl⟩, rfl⟩
      exact ⟨next, hadjust, hcheck, rfl⟩
  | upsertOrder o =>
    rw [apply_upsertOrder_iff]
    simp only [LedgerMutation.edit, bind_eq_ok_iff, pure_eq_ok_iff, exists_passed_iff]
    constructor
    · rintro ⟨hcheck, rfl⟩
      exact ⟨_, ⟨hcheck, rfl⟩, rfl⟩
    · rintro ⟨x, ⟨hcheck, rfl⟩, rfl⟩
      exact ⟨hcheck, rfl⟩
  | removeOrder e id =>
    rw [apply_removeOrder_iff]
    simp only [LedgerMutation.edit]
    constructor
    · rintro ⟨htracked, rfl⟩
      exact ⟨_, if_pos htracked, rfl⟩
    · rintro ⟨x, hx, rfl⟩
      split at hx
      · cases hx
        rename_i htracked
        exact ⟨htracked, rfl⟩
      · cases hx
  | setPosition p =>
    rw [apply_setPosition_iff]
    simp only [LedgerMutation.edit, ite_throw_eq_ok_iff, pure_eq_ok_iff]
    have hrun : (fun b : AccountBook =>
        if p.isFlat then b.dropPosition p.symbol else b.putPosition p) =
        (Edit.position p.symbol (if p.isFlat then none else some p)).run := by
      cases p.isFlat <;> rfl
    constructor
    · rintro ⟨hquantity, rfl⟩
      exact ⟨_, ⟨hquantity, rfl⟩, by rw [hrun]; rfl⟩
    · rintro ⟨x, ⟨hquantity, rfl⟩, rfl⟩
      exact ⟨hquantity, by rw [hrun]; rfl⟩
  | closePosition e s =>
    rw [apply_closePosition, Except.ok.injEq]
    constructor
    · rintro rfl
      exact ⟨_, rfl, rfl⟩
    · rintro ⟨x, hx, rfl⟩
      cases hx
      rfl

/-! ## 4. Changes to different slots -/

/-- What a change writes is not affected by what one of another slot has written. -/
theorem edit_book_write {e : ExchangeId} {x : Edit} (opens : Bool) (h : (e, x.slot) ≠ m.slot) :
    m.edit (book (write books e opens x) m.exchange) = m.edit (book books m.exchange) := by
  unfold book
  by_cases he : m.exchange = e
  · subst he
    have hslot : x.slot ≠ m.bookSlot := fun heq => h (by rw [LedgerMutation.slot, heq])
    rw [get?_write_self, LedgerMutation.edit_runOn hslot]
  · rw [get?_write_of_ne _ _ _ he]

/-- Nor is where the edits end up. -/
theorem write_comm {e e' : ExchangeId} {opens opens' : Bool} {x y : Edit}
    (h : (e, x.slot) ≠ (e', y.slot)) (hx : opens = false → x.run .empty = .empty)
    (hy : opens' = false → y.run .empty = .empty) :
    write (write books e opens x) e' opens' y = write (write books e' opens' y) e opens x := by
  refine SortedMap.ext_get? fun q => ?_
  by_cases hee : e = e'
  · subst hee
    have hslot : y.slot ≠ x.slot := fun heq => h (by rw [heq])
    by_cases hq : q = e
    · subst hq
      simp only [get?_write_self]
      exact Edit.runOn_comm hslot hy hx _
    · simp only [get?_write_of_ne _ _ _ hq]
  · by_cases hq : q = e
    · subst hq
      simp only [get?_write_self, get?_write_of_ne _ _ _ hee]
    · by_cases hq' : q = e'
      · subst hq'
        simp only [get?_write_self, get?_write_of_ne _ _ _ hq]
      · simp only [get?_write_of_ne _ _ _ hq, get?_write_of_ne _ _ _ hq']

/-- Of two changes to different slots, either may come first. -/
theorem applyAll_comm (h : m.slot ≠ m'.slot) {rest : List LedgerMutation}
    (happly : applyAll books (m :: m' :: rest) = .ok books') :
    applyAll books (m' :: m :: rest) = .ok books' := by
  simp only [applyAll_cons, bind_eq_ok_iff, apply_eq_ok_iff_edit] at happly ⊢
  obtain ⟨-, ⟨x, hx, rfl⟩, -, ⟨y, hy, rfl⟩, hrest⟩ := happly
  have hxslot : (m.exchange, x.slot) = m.slot := by
    rw [LedgerMutation.slot, LedgerMutation.slot_of_edit hx]
  have hyslot : (m'.exchange, y.slot) = m'.slot := by
    rw [LedgerMutation.slot, LedgerMutation.slot_of_edit hy]
  rw [edit_book_write _ (hxslot ▸ h)] at hy
  have hx' := hx
  rw [← edit_book_write m'.opens (hyslot ▸ Ne.symm h)] at hx'
  refine ⟨_, ⟨y, hy, rfl⟩, _, ⟨x, hx', rfl⟩, ?_⟩
  rw [write_comm (hyslot ▸ hxslot ▸ Ne.symm h) (LedgerMutation.run_empty_of_edit hy)
    (LedgerMutation.run_empty_of_edit hx)]
  exact hrest

/-- **Changes to different slots may be made in any order.** -/
theorem applyAll_perm {mutations mutations' : List LedgerMutation}
    (h : mutations.Perm mutations') (hslots : (mutations.map LedgerMutation.slot).Nodup) :
    applyAll books mutations = .ok books' ↔ applyAll books mutations' = .ok books' := by
  induction h generalizing books with
  | nil => exact Iff.rfl
  | cons m _ ih =>
    rw [List.map_cons, List.nodup_cons] at hslots
    simp only [applyAll_cons, bind_eq_ok_iff, ih hslots.2]
  | swap m m' rest =>
    simp only [List.map_cons, List.nodup_cons, List.mem_cons, not_or] at hslots
    exact ⟨applyAll_comm hslots.1.1, applyAll_comm (Ne.symm hslots.1.1)⟩
  | trans hfirst _ ih ih' =>
    exact (ih hslots).trans (ih' ((hfirst.map _).nodup_iff.1 hslots))

end AccountBooks

/-! ## 5. Batches in any order -/

namespace LedgerBook

variable {b b' : LedgerBook} {now : Instant} {mutations mutations' : List LedgerMutation}
  {reference : String} {ids : Nat → Uuid} {s : LedgerState}

/-- A journal that takes a batch takes any other of that length, if the ids of its records are not
used already. -/
theorem exists_mapM_append_of_unused {now' : Instant} {reference' : String} {ids' : Nat → Uuid}
    {journal : Option Journal}
    (h : b.journal.mapM (·.append (b.recordsFor now mutations reference ids)) = .ok journal)
    (hlength : mutations.length = mutations'.length)
    (hunused : ∀ j ∈ b.journal, j.Unused ((List.range mutations'.length).map ids')) :
    ∃ journal', b.journal.mapM (·.append (b.recordsFor now' mutations' reference' ids')) =
      .ok journal' := by
  cases hj : b.journal with
  | none => exact ⟨none, rfl⟩
  | some j =>
    rw [hj, Option.mapM_some, map_eq_ok_iff] at h
    obtain ⟨j₁, happend, -⟩ := h
    have hids : j.Unused ((b.recordsFor now' mutations' reference' ids').map (·.id)) := by
      rw [recordsFor, map_id_numberedRecords]
      exact hunused j hj
    have hnumbers : (b.recordsFor now mutations reference ids).map (·.sequence) =
        (b.recordsFor now' mutations' reference' ids').map (·.sequence) := by
      rw [recordsFor, recordsFor, map_sequence_numberedRecords, map_sequence_numberedRecords,
        hlength]
    obtain ⟨j₂, happend'⟩ := Journal.exists_append_of_unused ⟨j₁, happend⟩ hnumbers hids
    exact ⟨some j₂, by rw [Option.mapM_some, happend']; rfl⟩

/-- A batch that is accepted is accepted in any other order, with the same effect. -/
theorem Posted.exists_of_perm (h : Posted b now mutations reference ids s b')
    (hperm : mutations.Perm mutations') (hslots : (mutations.map LedgerMutation.slot).Nodup)
    (now' : Instant) (reference' : String) {ids' : Nat → Uuid}
    (hunused : ∀ j ∈ b.journal, j.Unused ((List.range mutations'.length).map ids')) :
    ∃ s' b'', Posted b now' mutations' reference' ids' s' b'' ∧ b''.latest = s' ∧
      s'.books = s.books ∧ s'.version = s.version ∧ s'.sequence = s.sequence := by
  cases h with
  | nothing hrunning hmutations =>
    subst hmutations
    obtain rfl := hperm.nil_eq
    exact ⟨_, _, .nothing hrunning rfl, rfl, rfl, rfl, rfl⟩
  | published htaken hversion =>
    obtain ⟨journal', hjournal'⟩ :=
      exists_mapM_append_of_unused htaken.journal hperm.length_eq hunused
    have htaken' : Taken b now' mutations' reference' ids' _ journal' := {
      running := htaken.running
      changes := fun hnil => htaken.changes (hnil ▸ hperm).eq_nil
      books := (AccountBooks.applyAll_perm hperm hslots).1 htaken.books
      numbers := hperm.length_eq ▸ htaken.numbers
      journal := hjournal' }
    refine ⟨_, _, .published htaken' hversion, rfl, rfl, rfl, ?_⟩
    rw [stateAfter, stateAfter, hperm.length_eq]

/-- **A batch of changes to different slots may be posted in any order**, at whatever time and for
whatever reason.  Either the ledger accepts it in every order, if the ids drawn for its records are
not used already, and the books, the version and the number of the last change are always the same;
or it accepts it in none, and stays as it is as long as there are versions. -/
theorem posts_in_any_order (b : LedgerBook)
    (hslots : (mutations.map LedgerMutation.slot).Nodup) :
    (∃ books version sequence, ∀ mutations', mutations.Perm mutations' →
      ∀ now reference ids,
        (∀ j ∈ b.journal, j.Unused ((List.range mutations'.length).map ids)) →
        ∃ s b', (post now mutations' reference ids).run b = .ok s b' ∧ b'.latest = s ∧
          s.books = books ∧ s.version = version ∧ s.sequence = sequence) ∨
    (∀ mutations', mutations.Perm mutations' → ∀ now reference ids,
      ∃ e b', (post now mutations' reference ids).run b = .error e b' ∧
        b'.history = b.history ∧ (b.latest.version + 1 < wordCount → b' = b)) := by
  by_cases haccepts : ∃ mutations₁, mutations.Perm mutations₁ ∧
      ∃ now reference ids s b', Posted b now mutations₁ reference ids s b'
  · obtain ⟨mutations₁, hperm₁, now₁, reference₁, ids₁, s, b₁, hposted⟩ := haccepts
    refine .inl ⟨s.books, s.version, s.sequence, fun mutations' hperm now reference ids hids => ?_⟩
    have hslots₁ := (hperm₁.map LedgerMutation.slot).nodup_iff.1 hslots
    obtain ⟨s', b', hposted', heffect⟩ :=
      hposted.exists_of_perm (hperm₁.symm.trans hperm) hslots₁ now reference hids
    exact ⟨s', b', run_post_ok_iff.2 hposted', heffect⟩
  · refine .inr fun mutations' hperm now reference ids => ?_
    cases hrun : (post now mutations' reference ids).run b with
    | ok s b' =>
      exact absurd ⟨mutations', hperm, now, reference, ids, s, b', run_post_ok_iff.1 hrun⟩ haccepts
    | error e b' =>
      refine ⟨e, b', rfl, ?_, eq_of_error_of_version hrun⟩
      rw [eq_of_error hrun]
      rfl

/-- A deposit, which opens a book, and the closing of a position, which does not, in a ledger that
keeps a journal. -/
theorem posts_deposit_and_closing_in_any_order :
    let b : LedgerBook := { fresh default default with journal := some .empty }
    let batch : List LedgerMutation :=
      [.adjustBalance (.of .exchange "paper") (.of .asset "USDT") .one .zero,
        .closePosition (.of .exchange "paper") (.of .symbol "BTCUSDT")]
    (batch.map LedgerMutation.slot).Nodup ∧
      ∃ books version sequence, ∀ mutations', batch.Perm mutations' → ∀ now reference ids,
        (∀ j ∈ b.journal, j.Unused ((List.range mutations'.length).map ids)) →
        ∃ s b', (post now mutations' reference ids).run b = .ok s b' ∧ b'.latest = s ∧
          s.books = books ∧ s.version = version ∧ s.sequence = sequence := by
  intro b batch
  have hslots : (batch.map LedgerMutation.slot).Nodup := by decide +kernel
  have hbooks : AccountBooks.applyAll b.latest.books batch = .ok _ := rfl
  have hunused : Journal.Unused .empty ((List.range batch.length).map (.stamped 0)) := {
    nodup := Uuid.nodup_map_stamped (by decide)
    fresh := fun _ hrow => nomatch hrow }
  have happend : ∃ j, Journal.append .empty (b.recordsFor default batch "" (.stamped 0)) =
      .ok j := by
    rw [Journal.exists_append_iff, Journal.fits_rows_iff, recordsFor,
      map_sequence_numberedRecords, map_id_numberedRecords]
    exact ⟨rfl, by decide, hunused⟩
  obtain ⟨j, hj⟩ := happend
  have htaken : Taken b default batch "" (.stamped 0) _ (some j) := {
    running := rfl
    changes := List.cons_ne_nil _ _
    books := hbooks
    numbers := by decide
    journal := congrArg (some <$> ·) hj }
  have hrun := run_post_ok_iff.2 (.published htaken (by decide))
  refine ⟨hslots, (posts_in_any_order b hslots).resolve_right fun hrefused => ?_⟩
  obtain ⟨e, b', he, -⟩ := hrefused batch (.refl _) default "" (.stamped 0)
  rw [hrun] at he
  cases he

end LedgerBook

end Reconciliation
