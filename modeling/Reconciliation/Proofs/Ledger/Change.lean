/-
# What a change does to the books

A change either leaves exactly one slot of one exchange's book different, or is refused.  The
books after it are given here kind by kind, as they come out of a copy, so nothing below has to
follow the procedure in place again.

* `apply_setBalance_iff` and its siblings: when a change is accepted, and what it leaves;
* `applyAll_cons`, `applyAll_append`: a batch is its first change and the rest;
* `applyAll_split_iff`: a batch is accepted with every change in it.
-/
import Reconciliation.Ledger.State
import Reconciliation.Proofs.Checked

namespace Reconciliation

namespace AccountBooks

variable {books books' : AccountBooks}

/-! ## 1. One book among all -/

theorem get?_onBook_self (books : AccountBooks) (e : ExchangeId) (f : AccountBook → AccountBook) :
    (onBook books e f).get? e = some (f (book books e)) := by
  simp [onBook, SortedMap.update, book]

theorem get?_onBook_of_ne (books : AccountBooks) {e e' : ExchangeId}
    (f : AccountBook → AccountBook) (h : e' ≠ e) :
    (onBook books e f).get? e' = books.get? e' :=
  SortedMap.get?_insert_of_ne books _ h

theorem book_onBook_self (books : AccountBooks) (e : ExchangeId) (f : AccountBook → AccountBook) :
    book (onBook books e f) e = f (book books e) := by
  simp [book, get?_onBook_self]

/-- A balance that was put into a book is the one that is found there. -/
theorem balance_onBook_putBalance (books : AccountBooks) (e : ExchangeId) (a : AssetId)
    (v : Balance) : (book (onBook books e (·.putBalance a v)) e).balance a = v := by
  simp [book_onBook_self, AccountBook.balance, AccountBook.putBalance]

/-- Two changes to one book are one change. -/
theorem onBook_onBook (books : AccountBooks) (e : ExchangeId) (f g : AccountBook → AccountBook) :
    onBook (onBook books e f) e g = onBook books e (fun b => g (f b)) := by
  refine SortedMap.ext_get? fun e' => ?_
  by_cases h : e' = e
  · subst h
    rw [get?_onBook_self, get?_onBook_self, book_onBook_self]
  · rw [get?_onBook_of_ne _ _ h, get?_onBook_of_ne _ _ h, get?_onBook_of_ne _ _ h]

/-! ## 2. One change -/

theorem apply_setBalance_iff {e : ExchangeId} {a : AssetId} {v : Balance} :
    apply books (.setBalance e a v) = .ok books' ↔
      v.check a = .ok () ∧ onBook books e (·.putBalance a v) = books' := by
  simp [apply, change]

theorem apply_adjustBalance_iff {e : ExchangeId} {a : AssetId} {freeDelta lockedDelta : Decimal} :
    apply books (.adjustBalance e a freeDelta lockedDelta) = .ok books' ↔
      ∃ next, ((book books e).balance a).adjust freeDelta lockedDelta = .ok next ∧
        next.check a = .ok () ∧ onBook books e (·.putBalance a next) = books' := by
  simp [apply, change, book_onBook_self, onBook_onBook]

theorem apply_upsertOrder_iff {o : Order} :
    apply books (.upsertOrder o) = .ok books' ↔
      o.check = .ok () ∧ onBook books o.exchange (·.putOrder o) = books' := by
  simp [apply, change]

theorem apply_removeOrder_iff {e : ExchangeId} {id : OrderId} :
    apply books (.removeOrder e id) = .ok books' ↔
      (book books e).orders.contains id = true ∧ onBook books e (·.dropOrder id) = books' := by
  cases h : (book books e).orders.contains id <;> simp [apply, change, h]

theorem apply_setPosition_iff {p : Position} :
    apply books (.setPosition p) = .ok books' ↔
      ¬ p.quantity < .zero ∧
        onBook books p.exchange
          (fun b => if p.isFlat then b.dropPosition p.symbol else b.putPosition p) = books' := by
  by_cases h : p.quantity < .zero
  · simp [apply, change, h]
  · cases hf : p.isFlat <;> simp [apply, change, h, hf]

theorem apply_closePosition (books : AccountBooks) (e : ExchangeId) (s : Symbol) :
    apply books (.closePosition e s) =
      .ok (if books.contains e then onBook books e (·.dropPosition s) else books) := rfl

/-! ## 3. A batch -/

theorem applyAll_cons (books : AccountBooks) (m : LedgerMutation) (rest : List LedgerMutation) :
    applyAll books (m :: rest) = apply books m >>= (applyAll · rest) := by
  simp only [applyAll, apply, changeAll, LedgerAction.result, EStateM.run_bind]
  cases (change m).run books <;> rfl

theorem applyAll_append (books : AccountBooks) (first second : List LedgerMutation) :
    applyAll books (first ++ second) = applyAll books first >>= (applyAll · second) := by
  induction first generalizing books with
  | nil => rfl
  | cons m rest ih =>
    rw [List.cons_append, applyAll_cons, applyAll_cons, bind_assoc]
    exact bind_congr fun books' => ih books'

/-- A batch is accepted with every change in it, each applied to what the changes before it made. -/
theorem applyAll_split_iff {first rest : List LedgerMutation} {m : LedgerMutation} :
    applyAll books (first ++ m :: rest) = .ok books' ↔
      ∃ before after, applyAll books first = .ok before ∧ apply before m = .ok after ∧
        applyAll after rest = .ok books' := by
  rw [applyAll_append, bind_eq_ok_iff]
  refine exists_congr fun before => ?_
  rw [applyAll_cons, bind_eq_ok_iff]
  constructor
  · rintro ⟨hfirst, after, hm, hrest⟩
    exact ⟨after, hfirst, hm, hrest⟩
  · rintro ⟨after, hfirst, hm, hrest⟩
    exact ⟨hfirst, after, hm, hrest⟩

/-- A batch is refused for a change that the state made by the changes before it does not take. -/
theorem applyAll_eq_error_iff {mutations : List LedgerMutation} {err : LedgerError} :
    applyAll books mutations = .error err ↔
      ∃ first m rest books', mutations = first ++ m :: rest ∧
        applyAll books first = .ok books' ∧ apply books' m = .error err := by
  constructor
  · intro h
    induction mutations generalizing books with
    | nil => cases h
    | cons m rest ih =>
      rw [applyAll_cons] at h
      cases hm : apply books m with
      | error e =>
        rw [hm] at h
        cases h
        exact ⟨[], m, rest, books, rfl, rfl, hm⟩
      | ok books₁ =>
        rw [hm] at h
        obtain ⟨first, m', rest', books₂, rfl, hfirst, hm'⟩ := ih h
        refine ⟨m :: first, m', rest', books₂, rfl, ?_, hm'⟩
        rw [applyAll_cons, hm]
        exact hfirst
  · rintro ⟨first, m, rest, books', rfl, hfirst, hm⟩
    rw [applyAll_append, hfirst]
    show applyAll books' (m :: rest) = _
    rw [applyAll_cons, hm]
    rfl

end AccountBooks

end Reconciliation
