/-
# What an adjustment loses

An adjustment adds up three times: each part of a balance with the amount that it is moved by, and
then the new parts to the new total.  Amounts are decimals of 28 digits or so, and the sum of a
large one and a small one with many places may need more.  It is accepted all the same, and
rounded: the check that follows adds the parts up in the same way, and finds nothing amiss.  So an
adjustment is as exact as a decimal can be, and no more than that.

* `Balance.Adjusted`: the three sums;
* `LedgerBook.adjusts_up_to_rounding`: an accepted adjustment, at any place of a batch;
* `LedgerBook.loses_small_adjustment`: one of which nothing is left.
-/
import Reconciliation.Proofs.Ledger.Soundness
import Reconciliation.Proofs.Numeric.Rounding

namespace Reconciliation

open AccountBooks (applyAll book onBook)

/-- `old.Adjusted freeDelta lockedDelta new`: both parts are moved and the total is theirs, each
sum as exactly as a decimal can hold it. -/
structure Balance.Adjusted (old : Balance) (freeDelta lockedDelta : Decimal) (new : Balance) :
    Prop where
  free : Decimal.SumOf old.free freeDelta new.free
  locked : Decimal.SumOf old.locked lockedDelta new.locked
  total : Decimal.SumOf new.free new.locked new.total

theorem Balance.adjusted_of_adjust {old new : Balance} {freeDelta lockedDelta : Decimal}
    (h : old.adjust freeDelta lockedDelta = .ok new) : old.Adjusted freeDelta lockedDelta new := by
  simp only [adjust, ofParts, bind_eq_ok_iff, pure_eq_ok_iff] at h
  obtain ⟨free, hfree, locked, hlocked, total, htotal, rfl⟩ := h
  exact {
    free := Decimal.sumOf_add hfree
    locked := Decimal.sumOf_add hlocked
    total := Decimal.sumOf_add htotal }

namespace LedgerBook

variable {b b' : LedgerBook} {now : Instant} {reference : String} {ids : Nat → Uuid}

/-- What an accepted batch leaves are the latest books with its changes applied. -/
theorem applyAll_of_commit {mutations : List LedgerMutation}
    (h : b.commit now mutations reference ids = .ok b') :
    applyAll b.latest.books mutations = .ok b'.latest.books := by
  obtain ⟨s, hposted⟩ := commit_eq_ok_iff.1 h
  cases hposted with
  | nothing _ hnothing =>
    rw [hnothing]
    rfl
  | published htaken => exact htaken.books

/-- **An accepted adjustment is exact up to rounding.**  It replaces one balance by another whose
parts are those before plus the amounts that they are moved by, and whose total is their sum.  Each
is exact if there is a decimal that is the exact sum, and else differs from the sum by at most one
part in `10 ^ 28`. -/
theorem adjusts_up_to_rounding {first rest : List LedgerMutation} {e : ExchangeId} {a : AssetId}
    {freeDelta lockedDelta : Decimal}
    (h : b.commit now (first ++ .adjustBalance e a freeDelta lockedDelta :: rest) reference ids =
      .ok b') :
    ∃ books new, applyAll b.latest.books first = .ok books ∧
      ((book books e).balance a).Adjusted freeDelta lockedDelta new ∧
      applyAll (onBook books e (·.putBalance a new)) rest = .ok b'.latest.books := by
  obtain ⟨books, after, hfirst, happly, hrest⟩ :=
    AccountBooks.applyAll_split_iff.1 (applyAll_of_commit h)
  obtain ⟨new, hadjust, -, rfl⟩ := AccountBooks.apply_adjustBalance_iff.1 happly
  exact ⟨books, new, hfirst, Balance.adjusted_of_adjust hadjust, hrest⟩

/-- A billionth of a billionth on top of one coin, in one batch. -/
theorem adjusts_up_to_rounding_after_deposit :
    let e : ExchangeId := .of .exchange "paper"
    let a : AssetId := .of .asset "USDT"
    let atto : Decimal := ⟨1, 18, by decide, by decide⟩
    let deposit : LedgerMutation := .setBalance e a (.ofFree .one)
    let adjustment : LedgerMutation := .adjustBalance e a atto .zero
    ∃ b' books new, (fresh default default).commit default ([deposit] ++ adjustment :: []) "" =
        .ok b' ∧
      applyAll .empty [deposit] = .ok books ∧
      ((book books e).balance a).Adjusted atto .zero new ∧
      applyAll (onBook books e (·.putBalance a new)) [] = .ok b'.latest.books := by
  intro e a atto deposit adjustment
  let sum : Decimal := ⟨1000000000000000001, 18, by decide, by decide⟩
  have hbooks : applyAll .empty ([deposit] ++ adjustment :: []) =
      .ok (onBook .empty e (·.putBalance a (.ofFree sum))) := by decide +kernel
  have htaken : Taken (fresh default default) default ([deposit] ++ adjustment :: []) ""
      (.stamped 0) _ none := taken_fresh (List.cons_ne_nil _ _) hbooks (by decide)
  have hcommit : (fresh default default).commit default ([deposit] ++ adjustment :: []) "" =
      .ok _ :=
    commit_eq_ok_iff.2 ⟨_, .published htaken (by decide)⟩
  obtain ⟨books, new, hadjusted⟩ := adjusts_up_to_rounding hcommit
  exact ⟨_, books, new, hcommit, hadjusted⟩

/-- **An accepted adjustment may move nothing at all**: a billionth of a billionth on top of a
hundred billion. -/
theorem loses_small_adjustment :
    let e : ExchangeId := .of .exchange "paper"
    let a : AssetId := .of .asset "USDT"
    let atto : Decimal := ⟨1, 18, by decide, by decide⟩
    let hundredBillion : Decimal := ⟨100000000000, 0, by decide, by decide⟩
    ∃ b b', Reachable b ∧
      b.commit default [.adjustBalance e a atto .zero] "" = .ok b' ∧
      ((book b.latest.books e).balance a).free = hundredBillion ∧
      ((book b'.latest.books e).balance a).free.Same hundredBillion ∧
      ((book b'.latest.books e).balance a).free.value ≠
        hundredBillion.value + atto.value := by
  intro e a atto hundredBillion
  let rounded : Decimal := ⟨10000000000000000000000000000, 17, by decide, by decide⟩
  let deposit : LedgerMutation := .setBalance e a (.ofFree hundredBillion)
  let adjustment : LedgerMutation := .adjustBalance e a atto .zero
  have hdeposit : applyAll .empty [deposit] =
      .ok (onBook .empty e (·.putBalance a (.ofFree hundredBillion))) := by
    decide +kernel
  have hadjustment :
      applyAll (onBook .empty e (·.putBalance a (.ofFree hundredBillion))) [adjustment] =
        .ok (onBook .empty e (·.putBalance a (.ofFree rounded))) := by
    decide +kernel
  obtain ⟨b, hb, hlatest, hrunning, hjournal, hversion, hcounter⟩ :=
    exists_reachable_of_applyAll hdeposit (by decide)
  have htaken : Taken b default [adjustment] "" (.stamped b.lastSequence) _ none := {
    running := hrunning
    changes := List.cons_ne_nil _ _
    books := hlatest ▸ hadjustment
    numbers := by
      rw [hcounter]
      decide
    journal := by
      rw [hjournal]
      rfl }
  have hroom : b.latest.version + 1 < wordCount := Nat.lt_of_le_of_lt
    (Nat.add_le_add_right hversion 1) (by decide)
  refine ⟨b, _, hb, commit_eq_ok_iff.2 ⟨_, .published htaken hroom⟩, ?_, ?_, ?_⟩
  · rw [hlatest, AccountBooks.balance_onBook_putBalance]
    rfl
  · show ((book (onBook _ e (·.putBalance a _)) e).balance a).free.Same hundredBillion
    rw [AccountBooks.balance_onBook_putBalance]
    decide
  · show ((book (onBook _ e (·.putBalance a _)) e).balance a).free.value ≠ _
    rw [AccountBooks.balance_onBook_putBalance]
    norm_num [Balance.ofFree, Decimal.value, rounded, hundredBillion, atto]

end LedgerBook

end Reconciliation
