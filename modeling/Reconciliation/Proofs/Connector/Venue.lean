/-
# What a paper venue answers to repeated calls

A venue keeps an account, and for each category a fault that is used up by the category's own
calls.  What a call is answered with therefore depends on how many calls of the same category were
begun before it, and on nothing that calls of other categories change: in whatever order the calls
of several categories begin, each of them is answered the same.

* `PaperVenue.afterCalls_eq`: what calls change;
* `PaperVenue.answer_afterCalls`: the answers, by the number of the call in its category;
* `PaperVenue.isLast_lastCall`, `PaperVenue.upcoming_lastCall`: the last call that a policy makes
  for a category, and the answer to it;
* `PaperVenue.Operated`: the venues that can be built and operated; they list their orders by id.
-/
import Reconciliation.Connector.Change
import Reconciliation.Connector.Registry
import Reconciliation.Proofs.Checked
import Reconciliation.Proofs.Retry
import Reconciliation.Proofs.SortedMap

namespace Reconciliation

/-! ## 1. Faults that are used up -/

namespace PaperFault

/-- The error of a call, by the number of calls before it. -/
def strike (f : PaperFault) (i : Nat) : Option ConnectorError :=
  match f.remaining with
  | none => some f.error
  | some n => if i < n then some f.error else none

/-- What is left of a fault after a number of calls. -/
def after (f : PaperFault) (n : Nat) : PaperFault :=
  { f with remaining := f.remaining.map (· - n) }

@[simp] theorem after_zero (f : PaperFault) : f.after 0 = f := by
  obtain ⟨e, _ | r⟩ := f <;> rfl

@[simp] theorem after_after (f : PaperFault) (m n : Nat) :
    (f.after m).after n = f.after (m + n) := by
  obtain ⟨e, _ | r⟩ := f
  · rfl
  · simp [after, Nat.sub_sub]

@[simp] theorem strike_after (f : PaperFault) (m i : Nat) :
    (f.after m).strike i = f.strike (m + i) := by
  obtain ⟨e, _ | r⟩ := f
  · rfl
  · have hi : i < r - m ↔ m + i < r := by omega
    simp [after, strike, hi]

/-- The next call is the one with number zero. -/
theorem next_eq (f : PaperFault) : PaperVenue.PaperFault.next f = (f.strike 0, f.after 1) := by
  obtain ⟨e, _ | _ | r⟩ := f <;> rfl

end PaperFault

/-! ## 2. Calls of several categories -/

/-- A value for each category, from a function. -/
def PerCategory.of {α : Type} (f : Category → α) : PerCategory α :=
  ⟨f .balances, f .orders, f .positions⟩

@[simp] theorem PerCategory.get_of {α : Type} (f : Category → α) (c : Category) :
    (PerCategory.of f).get c = f c := by
  cases c <;> rfl

theorem PerCategory.eq_of {α : Type} {p : PerCategory α} {f : Category → α}
    (h : ∀ c, p.get c = f c) : p = .of f :=
  ext_get fun c => by rw [h, get_of]

/-- The times of a category's calls, among calls in the order in which they began. -/
def timesOf (c : Category) (calls : List (Category × Nat)) : List Nat :=
  (calls.filter (·.1 = c)).map (·.2)

theorem timesOf_append (c : Category) (calls more : List (Category × Nat)) :
    timesOf c (calls ++ more) = timesOf c calls ++ timesOf c more := by
  simp [timesOf]

theorem timesOf_map_self (c : Category) (times : List Nat) :
    timesOf c (times.map (c, ·)) = times := by
  simp [timesOf, List.filter_map, Function.comp_def]

theorem timesOf_map_of_ne {c d : Category} (h : d ≠ c) (times : List Nat) :
    timesOf c (times.map (d, ·)) = [] := by
  simp [timesOf, List.filter_map, Function.comp_def, h]

/-- The times of a category's calls, where the calls of each category follow one another. -/
theorem timesOf_flatMap {categories : List Category} (hnodup : categories.Nodup)
    (times : Category → List Nat) (c : Category) :
    timesOf c (categories.flatMap fun d => (times d).map (d, ·)) =
      if c ∈ categories then times c else [] := by
  induction categories with
  | nil => rfl
  | cons d rest ih =>
    obtain ⟨hd, hrest⟩ := List.nodup_cons.1 hnodup
    rw [List.flatMap_cons, timesOf_append, ih hrest]
    by_cases hc : d = c
    · subst hc
      simp [timesOf_map_self, hd]
    · simp [timesOf_map_of_ne hc, List.mem_cons, Ne.symm hc]

namespace PaperVenue

variable {v : PaperVenue} {c : Category}

/-- The delay of a category's calls. -/
def delay (v : PaperVenue) (c : Category) : Nat := v.latency + v.categoryLatency.get c

/-- The venue after calls in the order in which they began, each with its time. -/
def afterCalls (v : PaperVenue) (calls : List (Category × Nat)) : PaperVenue :=
  calls.foldl (fun v call => (v.beginCall call.1 call.2).2.2) v

theorem afterCalls_append (v : PaperVenue) (calls more : List (Category × Nat)) :
    v.afterCalls (calls ++ more) = (v.afterCalls calls).afterCalls more :=
  List.foldl_append

/-- **Calls change the records and the faults of their own categories**, and nothing else. -/
theorem afterCalls_eq (v : PaperVenue) (calls : List (Category × Nat)) :
    v.afterCalls calls = { v with
      calls := .of fun c => (timesOf c calls).reverse ++ v.calls.get c
      faults := .of fun c => (v.faults.get c).map (·.after (timesOf c calls).length) } := by
  induction calls generalizing v with
  | nil =>
    have hcalls : v.calls = .of fun c => v.calls.get c := PerCategory.eq_of fun c => rfl
    have hfaults : v.faults = .of fun c => (v.faults.get c).map (·.after 0) :=
      PerCategory.eq_of fun c => by simp
    exact congrArg₂ (fun calls faults => { v with calls, faults }) hcalls hfaults
  | cons call rest ih =>
    obtain ⟨c₀, time⟩ := call
    refine (ih _).trans (congrArg₂ (fun calls faults => { v with calls, faults }) ?_ ?_)
    · refine PerCategory.eq_of fun c => ?_
      rw [PerCategory.get_of]
      by_cases hc : c₀ = c
      · subst hc
        simp [beginCall, timesOf]
      · simp [beginCall, timesOf, hc, PerCategory.get_set_of_ne _ _ (Ne.symm hc)]
    · refine PerCategory.eq_of fun c => ?_
      rw [PerCategory.get_of]
      by_cases hc : c₀ = c
      · subst hc
        simp only [beginCall, timesOf, PerCategory.get_set_self, Option.map_map,
          List.filter_cons, decide_true, if_true, List.map_cons, List.length_cons]
        refine congrArg (Option.map · _) (funext fun f => ?_)
        simp [Reconciliation.PaperFault.next_eq, Nat.add_comm]
      · simp [beginCall, timesOf, hc, PerCategory.get_set_of_ne _ _ (Ne.symm hc)]

/-- The order of calls of different categories does not matter. -/
theorem afterCalls_congr {calls calls' : List (Category × Nat)}
    (h : ∀ c, timesOf c calls = timesOf c calls') : v.afterCalls calls = v.afterCalls calls' := by
  simp only [afterCalls_eq, h]

theorem calls_afterCalls (calls : List (Category × Nat)) :
    (v.afterCalls calls).calls.get c = (timesOf c calls).reverse ++ v.calls.get c := by
  rw [afterCalls_eq, PerCategory.get_of]

theorem faults_afterCalls (calls : List (Category × Nat)) :
    (v.afterCalls calls).faults.get c =
      (v.faults.get c).map (·.after (timesOf c calls).length) := by
  rw [afterCalls_eq, PerCategory.get_of]

theorem delay_afterCalls (calls : List (Category × Nat)) :
    (v.afterCalls calls).delay c = v.delay c := by
  rw [afterCalls_eq]
  rfl

/-- The answer to a call that is begun next but `i` of its category. -/
def upcoming (v : PaperVenue) (c : Category) (i : Nat) : Except ConnectorError CategoryState :=
  v.answer c ((v.faults.get c).bind (·.strike i))

theorem upcoming_afterCalls (calls : List (Category × Nat)) (i : Nat) :
    (v.afterCalls calls).upcoming c i = v.upcoming c ((timesOf c calls).length + i) := by
  rw [upcoming, faults_afterCalls, Option.bind_map, afterCalls_eq, upcoming]
  simp only [Function.comp_def, PaperFault.strike_after]
  rfl

theorem beginCall_eq (v : PaperVenue) (c : Category) (now : Nat) :
    v.beginCall c now =
      (v.delay c, (v.faults.get c).bind (·.strike 0), v.afterCalls [(c, now)]) := by
  have hfault : (Option.map PaperFault.next (v.faults.get c)).bind (·.1) =
      (v.faults.get c).bind (·.strike 0) := by
    simp only [Option.bind_map, Function.comp_def, Reconciliation.PaperFault.next_eq]
  rw [← hfault]
  rfl

/-- **A call is answered by its number in its category**: whatever calls were begun before it, and
whatever calls are begun until its answer. -/
theorem answer_afterCalls (calls later : List (Category × Nat)) (now : Nat) :
    (v.afterCalls (calls ++ later)).answer c ((v.afterCalls calls).beginCall c now).2.1 =
      v.upcoming c (timesOf c calls).length := by
  have hunchanged : ∀ fault, (v.afterCalls (calls ++ later)).answer c fault =
      (v.afterCalls calls).answer c fault := by
    intro fault
    rw [afterCalls_eq, afterCalls_eq]
    rfl
  rw [hunchanged, beginCall_eq]
  exact upcoming_afterCalls calls 0

end PaperVenue

/-! ## 3. Calls that are repeated -/

section Repeated

variable {p : RetryPolicy}

namespace RetryPolicy

variable {final : Nat → Prop}

theorem isLast_zero (h : final 0) : p.IsLast final 0 := ⟨.inr h, fun _ _ => Nat.zero_le _⟩

theorem isLast_maxRetries (h : ∀ i, ¬ final i) : p.IsLast final p.maxRetries := by
  refine ⟨.inl rfl, ?_⟩
  rintro i (rfl | hi)
  · exact Nat.le_refl _
  · exact absurd hi (h i)

/-- The answers are final from some number on. -/
theorem isLast_min {n : Nat} (h : ∀ i, final i ↔ n ≤ i) : p.IsLast final (min n p.maxRetries) := by
  constructor
  · rcases Nat.le_total n p.maxRetries with hn | hn
    · rw [Nat.min_eq_left hn]
      exact .inr ((h n).2 (Nat.le_refl n))
    · rw [Nat.min_eq_right hn]
      exact .inl rfl
  · rintro i (rfl | hi)
    · exact Nat.min_le_right _ _
    · exact (Nat.min_le_left _ _).trans ((h i).1 hi)

end RetryPolicy

namespace PaperFault

/-- A fault that a policy gives up on: it stays, or it is there for the next call and either does
not pass or is left for more calls than there are repetitions. -/
def Outlasts (p : RetryPolicy) (f : PaperFault) : Prop :=
  f.remaining = none ∨
    ∃ n, f.remaining = some n ∧ 1 ≤ n ∧ (f.error.isTransient = false ∨ p.maxRetries < n)

instance (p : RetryPolicy) (f : PaperFault) : Decidable (f.Outlasts p) :=
  decidable_of_iff
    (f.remaining.all fun n => 1 ≤ n ∧ (f.error.isTransient = false ∨ p.maxRetries < n)) <| by
      cases h : f.remaining <;> simp [Outlasts, h]

/-- How often a policy has a call repeated on account of a fault. -/
def repetitions (p : RetryPolicy) (f : PaperFault) : Nat :=
  if f.error.isTransient then (f.remaining.map (min · p.maxRetries)).getD p.maxRetries else 0

/-- The first call that the fault does not have repeated, or the last that the policy allows. -/
theorem isLast_repetitions (p : RetryPolicy) (f : PaperFault) :
    p.IsLast (fun i => ∀ e, f.strike i = some e → e.isTransient = false) (f.repetitions p) := by
  obtain ⟨e, remaining⟩ := f
  unfold repetitions
  cases he : e.isTransient with
  | false =>
    refine RetryPolicy.isLast_zero ?_
    rcases remaining with _ | _ | n <;> simp [strike, he]
  | true =>
    cases remaining with
    | none => exact RetryPolicy.isLast_maxRetries (by simp [strike, he])
    | some n => exact RetryPolicy.isLast_min fun i => by simp [strike, he]

/-- The call after these repetitions fails exactly if the policy gives up. -/
theorem strike_repetitions (p : RetryPolicy) (f : PaperFault) :
    (f.Outlasts p ∧ f.strike (f.repetitions p) = some f.error) ∨
      (¬ f.Outlasts p ∧ f.strike (f.repetitions p) = none) := by
  obtain ⟨e, _ | n⟩ := f
  · exact .inl ⟨.inl rfl, rfl⟩
  · cases he : e.isTransient with
    | false =>
      cases n with
      | zero => exact .inr (by simp [Outlasts, strike])
      | succ n => exact .inl (by simp [Outlasts, strike, repetitions, he])
    | true =>
      have hstrike : strike ⟨e, some n⟩ (repetitions p ⟨e, some n⟩) =
          if p.maxRetries < n then some e else none := by
        simp [strike, repetitions, he]
      rw [hstrike]
      by_cases hn : p.maxRetries < n
      · exact .inl ⟨.inr ⟨n, rfl, Nat.one_le_of_lt hn, .inr hn⟩, if_pos hn⟩
      · exact .inr (by simp [Outlasts, he, hn])

end PaperFault

/-- How often a policy has a call repeated, by the connection and the fault of the category. -/
def RetryPolicy.repetitions (p : RetryPolicy) (connected : Bool) (fault : Option PaperFault) :
    Nat :=
  if connected then fault.elim 0 (·.repetitions p) else p.maxRetries

namespace PaperVenue

open RetryPolicy (Final)

variable {v : PaperVenue} {c : Category}

/-- The error of every call without a connection. -/
def disconnection (v : PaperVenue) : ConnectorError :=
  ⟨.transport, s!"{v.exchange} paper exchange disconnected"⟩

/-- Whether a policy gives up on the calls of a category. -/
def Fails (p : RetryPolicy) (v : PaperVenue) (c : Category) : Prop :=
  v.connected = false ∨ ∃ f, v.faults.get c = some f ∧ f.Outlasts p

instance (p : RetryPolicy) (v : PaperVenue) (c : Category) : Decidable (v.Fails p c) :=
  decidable_of_iff (v.connected = false ∨ (v.faults.get c).any (·.Outlasts p)) <| by
    simp [Fails, Option.any_eq_true]

/-- The error that a policy gives up with. -/
def cause (v : PaperVenue) (c : Category) : ConnectorError :=
  match v.connected, v.faults.get c with
  | true, some f => f.error
  | _, _ => v.disconnection

/-- The number of the last call that a policy makes for a category. -/
def lastCall (p : RetryPolicy) (v : PaperVenue) (c : Category) : Nat :=
  p.repetitions v.connected (v.faults.get c)

theorem upcoming_of_disconnected (h : v.connected = false) (i : Nat) :
    v.upcoming c i = .error v.disconnection := by
  simp only [upcoming, answer, h, Bool.false_eq_true, if_false, disconnection]

section Connected

variable (h : v.connected = true) {i : Nat}
include h

theorem upcoming_of_strike {e : ConnectorError}
    (hstrike : (v.faults.get c).bind (·.strike i) = some e) : v.upcoming c i = .error e := by
  simp only [upcoming, answer, h, if_true, hstrike]

theorem upcoming_of_no_strike (hstrike : (v.faults.get c).bind (·.strike i) = none) :
    v.upcoming c i = .ok (v.stateOf c) := by
  simp only [upcoming, answer, h, if_true, hstrike]

theorem final_upcoming_iff : Final (·.isTransient) (v.upcoming c i) ↔
    ∀ e, (v.faults.get c).bind (·.strike i) = some e → e.isTransient = false := by
  cases hstrike : (v.faults.get c).bind (·.strike i) with
  | none => simp [upcoming_of_no_strike h hstrike, Final]
  | some e => simp [upcoming_of_strike h hstrike, Final]

end Connected

/-- **The last call that a policy makes**, as the rule for repetitions has it. -/
theorem isLast_lastCall (p : RetryPolicy) (v : PaperVenue) (c : Category) :
    p.IsLast (fun i => Final (·.isTransient) (v.upcoming c i)) (v.lastCall p c) := by
  unfold lastCall RetryPolicy.repetitions
  cases hconnected : v.connected with
  | false =>
    refine RetryPolicy.isLast_maxRetries fun i hfinal => ?_
    cases hfinal _ (upcoming_of_disconnected hconnected i)
  | true =>
    simp only [final_upcoming_iff hconnected, if_true]
    cases v.faults.get c with
    | none => exact RetryPolicy.isLast_zero nofun
    | some f => exact f.isLast_repetitions p

/-- **The answer to the last call**: an error exactly if the policy gives up. -/
theorem upcoming_lastCall (p : RetryPolicy) (v : PaperVenue) (c : Category) :
    (v.Fails p c ∧ v.upcoming c (v.lastCall p c) = .error (v.cause c)) ∨
      (¬ v.Fails p c ∧ v.upcoming c (v.lastCall p c) = .ok (v.stateOf c)) := by
  unfold lastCall RetryPolicy.repetitions Fails cause
  cases hconnected : v.connected with
  | false => exact .inl ⟨.inl rfl, upcoming_of_disconnected hconnected _⟩
  | true =>
    cases hfault : v.faults.get c with
    | none => exact .inr ⟨by simp, upcoming_of_no_strike hconnected (by rw [hfault]; rfl)⟩
    | some f =>
      rcases f.strike_repetitions p with ⟨houtlasts, hstrike⟩ | ⟨houtlasts, hstrike⟩
      · refine .inl ⟨.inr ⟨f, rfl, houtlasts⟩, upcoming_of_strike hconnected ?_⟩
        rw [hfault]
        exact hstrike
      · refine .inr ⟨by simpa using houtlasts, upcoming_of_no_strike hconnected ?_⟩
        rw [hfault]
        exact hstrike

end PaperVenue

end Repeated

/-! ## 4. Venues in operation -/

/-- Every order is kept under its own id. -/
def AccountBook.Filed (b : AccountBook) : Prop := ∀ id o, b.orders.get? id = some o → o.id = id

namespace AccountBook

variable {b : AccountBook}

theorem filed_accountOf (balances : SortedMap AssetId Balance) (orders : List Order)
    (positions : List Position) : (PaperVenue.accountOf balances orders positions).Filed := by
  refine List.foldlRecOn
    (motive := fun m : SortedMap OrderId Order => ∀ id o, m.get? id = some o → o.id = id)
    (orders.map fun o => (o.id, o)) _ ?_ fun m hm entry hentry => ?_
  · intro id o h
    cases h
  · obtain ⟨o, -, rfl⟩ := List.mem_map.1 hentry
    exact SortedMap.forall_insert hm rfl

/-- Orders that are kept under their own ids are listed by id. -/
theorem Filed.pairwise_values (h : b.Filed) :
    b.orders.values.Pairwise fun x y => compare x.id y.id = .lt := by
  refine List.pairwise_map.2 (b.orders.sorted.imp_of_mem fun {x y} hx hy hlt => ?_)
  rwa [h _ _ (SortedMap.mem_entries_iff.1 hx), h _ _ (SortedMap.mem_entries_iff.1 hy)]

end AccountBook

namespace VenueChange

variable {v : PaperVenue}

theorem filed_takeOut (ids : List OrderId) (h : v.account.Filed) :
    (takeOut v ids).2.account.Filed := by
  induction ids generalizing v with
  | nil => exact h
  | cons id rest ih => exact ih (SortedMap.forall_erase h)

theorem account_applyFaults (faults : List (Category × FaultRequest)) :
    (applyFaults v faults).2.account = v.account := by
  induction faults generalizing v with
  | nil => rfl
  | cons fault rest ih =>
    obtain ⟨c, f⟩ := fault
    rw [applyFaults]
    split
    · exact ih
    · rfl

/-- A change files the orders that it puts in under their own ids. -/
theorem filed_apply (c : VenueChange) (haccount : ∀ b, c.account = some b → b.Filed)
    (h : v.account.Filed) : (c.apply v).2.account.Filed := by
  have hfold : ∀ {α : Type} (l : List α) (f : PaperVenue → α → PaperVenue) (v : PaperVenue),
      (∀ v a, v.account.Filed → (f v a).account.Filed) → v.account.Filed →
      (l.foldl f v).account.Filed := fun l f v hf hv =>
    List.foldlRecOn (motive := fun v => v.account.Filed) l f hv fun v hv a _ => hf v a hv
  unfold apply applyState
  dsimp only
  rw [account_applyFaults]
  refine hfold _ _ _ (fun v _ hv => hv) ?_
  refine hfold _ _ _ (fun v _ hv => hv) (filed_takeOut _ ?_)
  refine hfold _ _ _ (fun v _ hv => SortedMap.forall_insert hv rfl) ?_
  refine hfold _ _ _ (fun v _ hv => hv) ?_
  cases hnew : c.account with
  | none => split <;> exact h
  | some b => exact haccount b hnew

end VenueChange

/-- The venues that can be built and operated: accounts are read from lists of records or empty,
and they are changed record by record. -/
inductive PaperVenue.Operated : PaperVenue → Prop
  | built (readText : String → Except String String) (settings : PaperSettings)
      (exchange : ExchangeId) {v : PaperVenue}
      (h : (settings.venue (m := Id) readText exchange).run = .ok v) : Operated v
  | changed (c : VenueChange) {v : PaperVenue} (h : Operated v)
      (haccount : ∀ b, c.account = some b → ∃ balances orders positions,
        b = accountOf balances orders positions) : Operated (c.apply v).2
  | called (c : Category) (now : Nat) {v : PaperVenue} (h : Operated v) :
      Operated (v.beginCall c now).2.2

/-- What is read of a record, its reader gives for some of the fields. -/
theorem Json.exists_of_readRecord {α : Type} {reader : Json.RecordReader α} {j : Json} {a : α}
    (h : j.readRecord reader = some a) : ∃ fields rest, reader fields = some (a, rest) := by
  unfold readRecord at h
  split at h
  · obtain ⟨⟨a', rest⟩, hread, rfl⟩ := Option.map_eq_some_iff.1 h
    exact ⟨_, rest, hread⟩
  · split at h
    · rename_i hread
      cases h
      exact ⟨_, _, hread⟩
    · cases h
  · cases h

namespace PaperSettings

theorem filed_of_accountOfJson? {j : Json} {b : AccountBook}
    (h : PaperVenue.accountOfJson? j = some b) : b.Filed := by
  obtain ⟨fields, rest, hread⟩ := Json.exists_of_readRecord h
  obtain ⟨⟨balances, fields₁⟩, -, hread⟩ := Option.bind_eq_some_iff.1 hread
  obtain ⟨⟨orders, fields₂⟩, -, hread⟩ := Option.bind_eq_some_iff.1 hread
  obtain ⟨⟨positions, fields₃⟩, -, hread⟩ := Option.bind_eq_some_iff.1 hread
  cases hread
  exact AccountBook.filed_accountOf _ orders positions

theorem filed_of_accountOfText {path text : String} {b : AccountBook}
    (h : accountOfText path text = .ok b) : b.Filed := by
  unfold accountOfText at h
  split at h
  · rename_i hread
    cases h
    obtain ⟨j, -, hj⟩ := Option.bind_eq_some_iff.1 hread
    exact filed_of_accountOfJson? hj
  · cases h

theorem filed_of_account {readText : String → Except String String} {s : PaperSettings}
    {b : AccountBook} (h : (s.account (m := Id) readText).run = .ok b) : b.Filed := by
  unfold account at h
  split at h
  · cases h
    exact fun _ _ h => nomatch h
  · rename_i path _
    cases htext : readText path with
    | error reason =>
      rw [htext] at h
      cases h
    | ok text =>
      rw [htext] at h
      exact filed_of_accountOfText (show accountOfText path text = .ok b from h)

end PaperSettings

namespace PaperVenue

variable {v : PaperVenue}

theorem Operated.filed (h : v.Operated) : v.account.Filed := by
  induction h with
  | built readText settings exchange h =>
    unfold PaperSettings.venue at h
    cases hb : (settings.account (m := Id) readText).run with
    | error e =>
      simp only [ExceptT.run_bind, hb] at h
      cases h
    | ok b =>
      simp only [ExceptT.run_bind, hb] at h
      cases h
      exact PaperSettings.filed_of_account hb
  | changed c h haccount ih =>
    refine c.filed_apply (fun b hb => ?_) ih
    obtain ⟨balances, orders, positions, rfl⟩ := haccount b hb
    exact AccountBook.filed_accountOf balances orders positions
  | called c now h ih => exact ih

end PaperVenue

end Reconciliation
