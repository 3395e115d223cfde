/-
# How often a call is repeated

Calls to exchanges and reads of the ledger are repeated by one rule, for as long as the answers
are errors that pass and the policy allows it.  So of a sequence of answers only the first one
that stands matters, or the last one that the policy lets be asked for.

The rule holds in any monad.  What the calls and delays do there is given as a script: the point
at which each call begins, and the point at which it has been answered.

* `RetryPolicy.Scripted`, `RetryPolicy.run_scripted`: a run that follows a script stops at the
  first answer that stands, or at the last one allowed;
* `Recorded`: calls that are answered from a sequence, and a record of calls and delays;
* `EngineSettings.repeats_until_answered`: the calls, the delays and the results of both loops.
-/
import Mathlib.Data.Nat.Find
import Mathlib.Order.Bounds.Basic
import Reconciliation.Collection

namespace Reconciliation
namespace RetryPolicy

variable {α β δ ε : Type}

/-! ## 1. In any monad -/

/-- Whether no call follows an answer: it is a success, or an error that does not pass. -/
def Final (isTransient : ε → Bool) (answer : Except ε α) : Prop :=
  ∀ e, answer = .error e → isTransient e = false

/-- `p.IsLast final n`: of the answers, counted from zero, the one with number `n` is the first
that is final or the last that the policy allows. -/
def IsLast (p : RetryPolicy) (final : Nat → Prop) (n : Nat) : Prop :=
  IsLeast {n | n = p.maxRetries ∨ final n} n

section Script

variable {m : Type → Type} [Monad m] {p : RetryPolicy} {isTransient : ε → Bool}
  {call : m (Except ε α)} {wait : Span → m Unit} {answers : Nat → Except ε α}
  {before after : Nat → m Unit} {n : Nat}

/-- Up to number `n`, calls and delays follow a script: the call with number `i` is begun after
`before i` and leaves the monad after `after i`, with its answer; the delay leads from there to the
next call. -/
structure Scripted (p : RetryPolicy) (call : m (Except ε α)) (wait : Span → m Unit)
    (answers : Nat → Except ε α) (before after : Nat → m Unit) (n : Nat) : Prop where
  call : ∀ i ≤ n, (before i >>= fun _ => call) = (after i >>= fun _ => pure (answers i))
  wait : ∀ i < n, (after i >>= fun _ => wait (p.backoff i)) = before (i + 1)

variable [LawfulMonad m]

/-- **A run that follows a script ends with the last answer of the script**, and nothing is done
after that answer. -/
theorem run_scripted (h : p.Scripted call wait answers before after n)
    (hn : p.IsLast (fun i => Final isTransient (answers i)) n) :
    (before 0 >>= fun _ => p.run isTransient call wait) =
      (after n >>= fun _ => pure (answers n)) := by
  have hle : n ≤ p.maxRetries := hn.2 (.inl rfl)
  -- the induction is on the calls that are still to come
  suffices hfrom : ∀ d i, i + d = n →
      (before i >>= fun _ => p.runFrom isTransient call wait (p.maxRetries - i)) =
        (after n >>= fun _ => pure (answers n)) from hfrom n 0 (Nat.zero_add n)
  intro d
  induction d with
  | zero =>
    rintro i rfl
    have hcall := h.call i (Nat.le_refl i)
    cases hleft : p.maxRetries - i with
    | zero => exact hcall
    | succ left =>
      have hfinal : Final isTransient (answers i) := hn.1.resolve_left (by omega)
      rw [runFrom, ← bind_assoc, hcall, bind_assoc]
      refine bind_congr fun _ => ?_
      rw [pure_bind]
      cases hanswer : answers i with
      | ok a => rfl
      | error e =>
        have he : isTransient e = false := hfinal e hanswer
        simp only [he, Bool.false_eq_true, if_false]
  | succ d ih =>
    intro i hi
    obtain ⟨left, hleft⟩ : ∃ left, p.maxRetries - i = left + 1 :=
      ⟨p.maxRetries - i - 1, by omega⟩
    have hpasses : ∃ e, answers i = .error e ∧ isTransient e = true := by
      have hnot : ¬ Final isTransient (answers i) := fun hfinal => by
        have hlast : n ≤ i := hn.2 (.inr hfinal)
        omega
      simpa only [Final, not_forall, Bool.not_eq_false, exists_prop] using hnot
    obtain ⟨e, hanswer, he⟩ := hpasses
    have hattempt : p.maxRetries - (left + 1) = i := by omega
    have hnext : left = p.maxRetries - (i + 1) := by omega
    rw [hleft, runFrom, ← bind_assoc, h.call i (by omega), bind_assoc]
    simp only [pure_bind, hanswer, he, if_true, hattempt]
    rw [← bind_assoc, h.wait i (by omega), hnext]
    exact ih (i + 1) (by omega)

end Script

end RetryPolicy

/-! ## 2. Calls that are recorded -/

/-- What a loop does to what is outside of it. -/
inductive Deed
  | call
  | wait (span : Span)
  deriving DecidableEq

/-- Calls and delays are recorded. -/
abbrev Recorded := StateM (List Deed)

namespace Recorded

variable {α β : Type}

/-- A call.  The sequence has its answer under the number of calls before it. -/
def call (answers : Nat → α) : Recorded α := do
  let record ← get
  set (record ++ [.call])
  return answers (record.count .call)

def wait (span : Span) : Recorded Unit := modify (· ++ [.wait span])

end Recorded

namespace RetryPolicy

variable {α β δ ε : Type} {p : RetryPolicy}

/-- The record of a call that was repeated `n` times, with a delay before each repetition. -/
def record (p : RetryPolicy) (n : Nat) : List Deed :=
  .call :: (List.range n).flatMap fun i => [.wait (p.backoff i), .call]

theorem record_succ (p : RetryPolicy) (n : Nat) :
    p.record (n + 1) = p.record n ++ [.wait (p.backoff n), .call] := by
  rw [record, List.range_succ, List.flatMap_append, List.flatMap_singleton, ← List.cons_append,
    ← record]

theorem count_call_record (p : RetryPolicy) (n : Nat) : (p.record n).count .call = n + 1 := by
  induction n with
  | zero => rfl
  | succ n ih => rw [record_succ, List.count_append, ih]; rfl

/-- What is on record before the call with number `i`. -/
def recordBefore (p : RetryPolicy) : Nat → List Deed
  | 0 => []
  | i + 1 => p.record i ++ [.wait (p.backoff i)]

theorem recordBefore_concat (p : RetryPolicy) (i : Nat) :
    p.recordBefore i ++ [.call] = p.record i := by
  cases i with
  | zero => rfl
  | succ i => rw [recordBefore, record_succ, List.append_assoc]; rfl

theorem count_call_recordBefore (p : RetryPolicy) (i : Nat) :
    (p.recordBefore i).count .call = i := by
  have h := p.count_call_record i
  rw [← recordBefore_concat, List.count_append] at h
  exact Nat.succ.inj h

/-- Any sequence of answers is a script. -/
theorem scripted_recorded (p : RetryPolicy) (read : α → Except ε β) (answers : Nat → α) (n : Nat) :
    p.Scripted (read <$> Recorded.call answers) Recorded.wait (fun i => read (answers i))
      (fun i => set (p.recordBefore i)) (fun i => set (p.record i)) n where
  call i _ := by
    have hcall : (set (p.recordBefore i) >>= fun _ => read <$> Recorded.call answers : Recorded _) =
        (set (p.recordBefore i ++ [.call]) >>= fun _ =>
          pure (read (answers ((p.recordBefore i).count .call)))) := rfl
    rw [hcall, recordBefore_concat, count_call_recordBefore]
  wait i _ := rfl

/-! ## 3. The rule of both loops -/

/-- Whether no call follows an answer: it is a success, or an error that does not pass.  An answer
that is missing passes. -/
def Stands (passes : ε → Prop) : Option (Except ε α) → Prop
  | .none => False
  | some (.ok _) => True
  | some (.error e) => ¬ passes e

/-- `p.Repeats passes answers result loop`: over any answers, the loop makes as many calls as are
needed for an answer that stands, or as the policy allows if that is less; it waits between them as
the policy says, and its result is that of the last answer. -/
structure Repeats (p : RetryPolicy) (passes : ε → Prop) (answers : Nat → Option (Except ε α))
    (result : Option (Except ε α) → Except δ β) (loop : Recorded (Except δ β)) : Prop where
  stops : ∃ k, IsLeast {k | k = p.maxRetries + 1 ∨ ∃ i, k = i + 1 ∧ Stands passes (answers i)} k ∧
    loop.run [] = (result (answers (k - 1)), p.record (k - 1))
  succeeds_iff : (∃ b, (loop.run []).1 = .ok b) ↔
    ∃ i ≤ p.maxRetries, (∃ a, answers i = some (.ok a)) ∧ ∀ j < i, ¬ Stands passes (answers j)

section Repeats

variable {passes : ε → Prop} {answers : Nat → Option (Except ε α)}

/-- One of the answers is the first that stands, or the last allowed. -/
theorem exists_isLast (p : RetryPolicy) (final : Nat → Prop) : ∃ n, p.IsLast final n := by
  classical
  have hsome : ∃ n, n = p.maxRetries ∨ final n := ⟨p.maxRetries, .inl rfl⟩
  exact ⟨Nat.find hsome, Nat.find_spec hsome, fun n hn => Nat.find_min' hsome hn⟩

/-- The last answer counted from one. -/
theorem IsLast.isLeast_calls {n : Nat} (h : p.IsLast (fun i => Stands passes (answers i)) n) :
    IsLeast {k | k = p.maxRetries + 1 ∨ ∃ i, k = i + 1 ∧ Stands passes (answers i)} (n + 1) := by
  constructor
  · rcases h.1 with hn | hn
    · exact .inl (by rw [hn])
    · exact .inr ⟨n, rfl, hn⟩
  · rintro k (rfl | ⟨i, rfl, hi⟩)
    · exact Nat.succ_le_succ (h.2 (.inl rfl))
    · exact Nat.succ_le_succ (h.2 (.inr hi))

/-- The last answer is a success exactly if some answer is that the policy allows to ask for, and
all before it pass. -/
theorem IsLast.success_iff {n : Nat} (h : p.IsLast (fun i => Stands passes (answers i)) n) :
    (∃ a, answers n = some (.ok a)) ↔
      ∃ i ≤ p.maxRetries, (∃ a, answers i = some (.ok a)) ∧
        ∀ j < i, ¬ Stands passes (answers j) := by
  constructor
  · intro hn
    refine ⟨n, h.2 (.inl rfl), hn, fun j hj hstands => ?_⟩
    exact absurd (h.2 (.inr hstands)) (Nat.not_le.2 hj)
  · rintro ⟨i, hi, ⟨a, ha⟩, hbefore⟩
    have hstands : Stands passes (answers i) := by
      rw [ha]
      trivial
    have hle : n ≤ i := h.2 (.inr hstands)
    have hge : i ≤ n := by
      rcases h.1 with rfl | hn
      · exact hi
      · exact Nat.not_lt.1 fun hlt => hbefore n hlt hn
    rw [Nat.le_antisymm hle hge]
    exact ⟨a, ha⟩

/-- A loop repeats by the rule if it runs the policy on calls, whose missing answers it reads as an
error that passes, and makes something of the last answer. -/
theorem repeats_run {isTransient : δ → Bool} {γ ζ : Type} {read : Option (Except ε α) → Except δ γ}
    {finish : Except δ γ → Except ζ β} {result : Option (Except ε α) → Except ζ β}
    (hread : ∀ x, Final isTransient (read x) ↔ Stands passes x)
    (hresult : ∀ x, finish (read x) = result x)
    (hok : ∀ x, (∃ b, result x = .ok b) ↔ ∃ a, x = some (.ok a)) :
    p.Repeats passes answers result
      (finish <$> p.run isTransient (read <$> Recorded.call answers) Recorded.wait) := by
  obtain ⟨n, hn⟩ := p.exists_isLast fun i => Stands passes (answers i)
  have hlast : p.IsLast (fun i => Final isTransient (read (answers i))) n := by
    simpa only [IsLast, hread] using hn
  have hrun := run_scripted (p.scripted_recorded read answers n) hlast
  have hended :
      (finish <$> p.run isTransient (read <$> Recorded.call answers) Recorded.wait).run [] =
        (result (answers n), p.record n) := by
    have h := congrArg (fun x => (finish <$> x).run []) hrun
    rw [← hresult]
    exact h
  refine ⟨⟨n + 1, hn.isLeast_calls, hended⟩, ?_⟩
  rw [hended, ← hn.success_iff]
  exact hok (answers n)

end Repeats

end RetryPolicy

/-! ## 4. Exchanges and the ledger -/

/-- The failures of a call that pass. -/
def ConnectorError.Passes (e : ConnectorError) : Prop :=
  e.kind = .transport ∨ e.kind = .timeout ∨ e.kind = .rateLimited

/-- The failures of a read that pass. -/
def LedgerError.Passes (e : LedgerError) : Prop := ∃ fault, e = .storage fault

/-- What fetching a category gives if this is the last answer. -/
def fetchResult {α : Type} (s : EngineSettings) (exchange : ExchangeId) (c : Category) :
    Option (Except ConnectorError α) → Except ReconciliationError α
  | some (.ok a) => .ok a
  | some (.error e) => .error (.connectivity exchange e)
  | none => .error (.connectivity exchange
      ⟨.timeout, s!"{c.name} call exceeded {s.callTimeout.toText}"⟩)

/-- What reading the ledger gives if this is the last answer. -/
def readResult (s : EngineSettings) (time : Instant) :
    Option (Except LedgerError LedgerState) → Except ReconciliationError LedgerSnapshot
  | some (.ok state) => .ok (.ofState state time)
  | some (.error e) => .error (.ledger e)
  | none => .error (.ledgerTimeout s.ledgerTimeout)

theorem ConnectorError.isTransient_eq_false_iff (e : ConnectorError) :
    e.isTransient = false ↔ ¬ e.Passes := by
  obtain ⟨kind, reason⟩ := e
  cases kind <;> simp [isTransient, Passes]

/-- An answer that is not repeated stands. -/
theorem ConnectorError.stands_some_iff {α : Type} (answer : Except ConnectorError α) :
    RetryPolicy.Stands Passes (some answer) ↔ RetryPolicy.Final (·.isTransient) answer := by
  cases answer <;> simp [RetryPolicy.Stands, RetryPolicy.Final, isTransient_eq_false_iff]

theorem isTransientRead_ledger (e : LedgerError) :
    isTransientRead (.ledger e) = false ↔ ¬ e.Passes := by
  cases e <;> simp [isTransientRead, LedgerError.Passes]

namespace EngineSettings

open RetryPolicy (Final Stands)

/-- **Calls to exchanges and reads of the ledger are repeated by one rule.**  Over any sequence of
answers, among which may be missing ones, each loop ends: after as many calls as it takes to come to
a success or to an error that does not pass, or after the calls that the policy allows.  It waits
for the delays of the policy between them, and for nothing else; and it succeeds exactly if one of
the answers that it may ask for is a success, and all before it pass. -/
theorem repeats_until_answered (s : EngineSettings) :
    (∀ (α : Type) (exchange : ExchangeId) (c : Category)
      (answers : Nat → Option (Except ConnectorError α)),
      s.retry.Repeats ConnectorError.Passes answers (fetchResult s exchange c)
        (fetch s exchange c (Recorded.call answers) Recorded.wait)) ∧
    ∀ (time : Instant) (answers : Nat → Option (Except LedgerError LedgerState)),
      s.retry.Repeats LedgerError.Passes answers (readResult s time)
        (readExpected s time (Recorded.call answers) Recorded.wait) := by
  constructor
  · intro α exchange c answers
    refine RetryPolicy.repeats_run (fun x => ?_) (fun x => ?_) fun x => ?_
    · cases x with
      | none => simp [Final, Stands, answerWithin, ConnectorError.isTransient]
      | some answer => exact (ConnectorError.stands_some_iff answer).symm
    · rcases x with _ | e | a <;> rfl
    · rcases x with _ | e | a <;> simp [fetchResult]
  · intro time answers
    refine RetryPolicy.repeats_run (fun x => ?_) (fun x => ?_) fun x => ?_
    · rcases x with _ | e | a
      · simp [Final, Stands, readWithin, isTransientRead]
      · simp [Final, Stands, readWithin, Except.mapError, isTransientRead_ledger]
      · simp [Final, Stands, readWithin, Except.mapError]
    · rcases x with _ | e | a <;> rfl
    · rcases x with _ | e | a <;> simp [readResult]

/-- Two calls without an answer are repeated, and the third call is answered. -/
example : (fetch .standard default .balances
    (Recorded.call fun i => if i < 2 then none else some (.ok i)) Recorded.wait).run [] =
      (.ok 2, [.call, .wait (.ofMillis 200), .call, .wait (.ofMillis 400), .call]) := rfl

end EngineSettings

end Reconciliation
