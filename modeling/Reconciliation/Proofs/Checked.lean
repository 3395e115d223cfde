/-
# Computations that may fail

How a step of a computation that may fail, and so the whole of it, comes out well.

* `bind_eq_ok_iff`: both parts of a sequence do;
* `LedgerAction.run_check`: a check in a procedure passes or stops it, and changes nothing.
-/
import Reconciliation.Ledger.Error

namespace Reconciliation

variable {ε ε' α β σ : Type}

/-! ## 1. Results -/

@[simp] theorem bind_eq_ok_iff {x : Except ε α} {f : α → Except ε β} {b : β} :
    (x >>= f) = .ok b ↔ ∃ a, x = .ok a ∧ f a = .ok b := by
  cases x with
  | error e => simp [bind, Except.bind]
  | ok a => simp [bind, Except.bind]

/-- A sequence comes out if its first part does and then its second. -/
theorem exists_bind_eq_ok_iff {x : Except ε α} {f : α → Except ε β} :
    (∃ b, (x >>= f) = .ok b) ↔ ∃ a, x = .ok a ∧ ∃ b, f a = .ok b := by
  cases x with
  | error e => simp [bind, Except.bind]
  | ok a => simp [bind, Except.bind]

/-- What is made of a result does not matter to whether there is one. -/
theorem exists_bind_pure_iff {x : Except ε α} {f : α → β} :
    (∃ b, (x >>= fun a => pure (f a)) = .ok b) ↔ ∃ a, x = .ok a := by
  rw [exists_bind_eq_ok_iff]
  exact exists_congr fun a => and_iff_left ⟨f a, rfl⟩

@[simp] theorem map_eq_ok_iff {x : Except ε α} {f : α → β} {b : β} :
    f <$> x = .ok b ↔ ∃ a, x = .ok a ∧ f a = b := by
  cases x with
  | error e => simp [Functor.map, Except.map]
  | ok a => simp [Functor.map, Except.map]

/-- A check has nothing to tell but that it passed. -/
@[simp] theorem exists_passed_iff {p : Unit → Prop} : (∃ u, p u) ↔ p () :=
  ⟨fun ⟨_, h⟩ => h, fun h => ⟨_, h⟩⟩

@[simp] theorem pure_eq_ok_iff {a b : α} : (pure a : Except ε α) = .ok b ↔ a = b := by
  simp [pure, Except.pure]

@[simp] theorem mapError_eq_ok_iff {x : Except ε α} {f : ε → ε'} {a : α} :
    x.mapError f = .ok a ↔ x = .ok a := by
  cases x with
  | error e => exact ⟨nofun, nofun⟩
  | ok b =>
    show (.ok b : Except ε' α) = .ok a ↔ _
    rw [Except.ok.injEq, Except.ok.injEq]

/-- Steps that all come out well. -/
theorem mapM_eq_ok {f : α → Except ε β} {g : α → β} {l : List α} (h : ∀ a ∈ l, f a = .ok (g a)) :
    l.mapM f = .ok (l.map g) := by
  induction l with
  | nil => rfl
  | cons a rest ih =>
    obtain ⟨ha, hrest⟩ := List.forall_mem_cons.1 h
    rw [List.mapM_cons, ha, ih hrest]
    rfl

/-- Steps of which one fails, when there is one way to fail. -/
theorem mapM_eq_error {f : α → Except ε β} {l : List α} {e : ε} {a : α} (ha : a ∈ l)
    (hfails : f a = .error e) (h : ∀ a ∈ l, f a = .error e ∨ ∃ b, f a = .ok b) :
    l.mapM f = .error e := by
  induction l with
  | nil => cases ha
  | cons a' rest ih =>
    rw [List.mapM_cons]
    rcases h a' List.mem_cons_self with hfirst | ⟨b, hb⟩
    · rw [hfirst]
      rfl
    · have hne : a ≠ a' := by
        rintro rfl
        rw [hfails] at hb
        cases hb
      have hrest := ih ((List.mem_cons.1 ha).resolve_left hne)
        fun a ha => h a (List.mem_cons_of_mem a' ha)
      rw [hb, hrest]
      rfl

/-- What comes out of steps came out of one of them. -/
theorem exists_of_mem_mapM {f : α → Except ε β} {l : List α} {l' : List β} {b : β}
    (h : l.mapM f = .ok l') (hb : b ∈ l') : ∃ a ∈ l, f a = .ok b := by
  induction l generalizing l' with
  | nil =>
    cases h
    cases hb
  | cons a rest ih =>
    simp only [List.mapM_cons, bind_eq_ok_iff, pure_eq_ok_iff] at h
    obtain ⟨b', hb', rest', hrest', rfl⟩ := h
    rcases List.mem_cons.1 hb with rfl | hb
    · exact ⟨a, List.mem_cons_self, hb'⟩
    · obtain ⟨a', ha', hfa'⟩ := ih hrest' hb
      exact ⟨a', List.mem_cons_of_mem a ha', hfa'⟩

/-- Steps fail as one of them does. -/
theorem exists_of_mapM_eq_error {f : α → Except ε β} {l : List α} {e : ε}
    (h : l.mapM f = .error e) : ∃ a ∈ l, f a = .error e := by
  induction l with
  | nil => cases h
  | cons a rest ih =>
    rw [List.mapM_cons] at h
    cases ha : f a with
    | error e' =>
      rw [ha] at h
      cases h
      exact ⟨a, List.mem_cons_self, ha⟩
    | ok b =>
      rw [ha] at h
      cases hrest : rest.mapM f with
      | error e' =>
        rw [hrest] at h
        cases h
        obtain ⟨a', ha', hfails⟩ := ih hrest
        exact ⟨a', List.mem_cons_of_mem a ha', hfails⟩
      | ok bs =>
        rw [hrest] at h
        cases h

/-- Arithmetic on a ledger's amounts fails only by an overflow. -/
@[simp] theorem amount_eq_ok_iff {x : Except Decimal.Overflow α} {a : α} :
    (liftM x : Except LedgerError α) = .ok a ↔ x = .ok a :=
  mapError_eq_ok_iff (f := LedgerError.overflow)

/-- A condition that a computation checks first holds if it comes out well. -/
@[simp] theorem ite_throw_eq_ok_iff {p : Prop} [Decidable p] {e : ε} {x : Except ε α} {a : α} :
    (if p then throw e else x) = .ok a ↔ ¬ p ∧ x = .ok a := by
  split <;> rename_i h <;> simp [h]

/-! ## 2. Procedures

What a procedure makes of a copy, step by step: a check passes or ends it, and a change is made
before the rest. -/

namespace LedgerAction

variable {s s' : σ} {e : LedgerError}

theorem result_eq_ok_iff {p : LedgerAction σ α} :
    p.result s = .ok s' ↔ ∃ a, p.run s = .ok a s' := by
  unfold result
  split <;> rename_i h <;> simp [h]

theorem run_check (x : Except LedgerError α) :
    EStateM.run (liftM x : LedgerAction σ α) s =
      match x with
      | .ok a => .ok a s
      | .error e => .error e s := rfl

theorem run_amount (x : Except Decimal.Overflow α) :
    EStateM.run (liftM x : LedgerAction σ α) s =
      match x with
      | .ok a => .ok a s
      | .error o => .error (.overflow o) s := by
  cases x <;> rfl

@[simp] theorem result_modify (g : σ → σ) : result (modify g) s = .ok (g s) := rfl

@[simp] theorem result_throw : result (throw e : LedgerAction σ α) s = .error e := rfl

@[simp] theorem result_get_bind (f : σ → LedgerAction σ α) :
    result (get >>= f) s = (f s).result s := rfl

@[simp] theorem result_modify_bind (g : σ → σ) (f : Unit → LedgerAction σ α) :
    result (modify g >>= f) s = (f ()).result (g s) := rfl

@[simp] theorem result_check_bind (x : Except LedgerError α) (f : α → LedgerAction σ β) :
    result (liftM x >>= f) s = x >>= fun a => (f a).result s := by
  cases x <;> rfl

@[simp] theorem result_amount_bind (x : Except Decimal.Overflow α) (f : α → LedgerAction σ β) :
    result (liftM x >>= f) s = (x.mapError .overflow : Except LedgerError α) >>=
      fun a => (f a).result s := by
  cases x <;> rfl

end LedgerAction

end Reconciliation
