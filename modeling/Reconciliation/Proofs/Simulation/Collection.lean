/-
# Collections from paper venues

A collection calls a venue for one category at a time on each of its timelines, and repeats what
fails.  The calls for a category use up the fault of that category, so that the rule for
repetitions and the venue's faults together decide what is collected: exactly the categories that
the policy gives up on are missing, and all others are what the account holds.

* `Timeline.Comes`: activities that end well, step by step;
* `PaperVenue.requests`, `PaperVenue.answeredAt`: the times of a category's calls, and of the last
  answer;
* `SimulatedExchange.comes_fetch`, `SimulatedExchange.fetchAll_eq`: one category, and all of them;
* `ExchangeSnapshot.stateOf_ofFetches`, `ExchangeSnapshot.collectionError_eq`: the snapshot;
* `SimulatedExchange.degrades_what_fails`: what is collected from a venue, and what it costs.
-/
import Mathlib.Data.List.MinMax
import Reconciliation.Proofs.Connector.Venue
import Reconciliation.Proofs.Simulation.Session

namespace Reconciliation

/-! ## 1. Activities that end well -/

namespace Timeline

variable {σ α β : Type} {x : Timeline σ α} {f : α → Timeline σ β} {t t' t'' : Timed σ}
  {a : α} {b : β} {world : σ} {now horizon : Nat}

/-- `Comes t x a t'`: from one point, the activity comes to another one, with a result. -/
def Comes (t : Timed σ) (x : Timeline σ α) (a : α) (t' : Timed σ) : Prop :=
  (ExceptT.run x).run t = (.ok a, t')

theorem comes_pure : Comes t (pure a : Timeline σ α) a t := rfl

theorem comes_get : Comes t (get : Timeline σ (Timed σ)) t t := rfl

theorem comes_set : Comes t (set t' : Timeline σ PUnit) ⟨⟩ t' := rfl

theorem Comes.bind (hx : Comes t x a t') (hf : Comes t' (f a) b t'') : Comes t (x >>= f) b t'' := by
  rw [Comes, ExceptT.run_bind, StateT.run_bind, hx]
  exact hf

theorem Comes.map (g : α → β) (hx : Comes t x a t') : Comes t (g <$> x) (g a) t' := by
  rw [Comes, ExceptT.run_map, StateT.run_map, hx]
  rfl

/-- The activity is the step from the one point to the other. -/
theorem comes_iff : Comes t x a t' ↔
    (set t >>= fun _ => x) = (set t' >>= fun _ => pure a) :=
  ⟨fun h => funext fun _ => h, fun h => congrFun h t⟩

theorem comes_pass {ms : Nat} (h : now + ms < horizon) :
    Comes ⟨world, now, some horizon⟩ (pass ms) () ⟨world, now + ms, some horizon⟩ := by
  refine comes_get.bind ?_
  dsimp only
  rw [if_pos h]
  exact comes_set

/-- An answer that comes before the time limit and the horizon. -/
theorem comes_within {limit : Span} {delay : Nat} (hdelay : delay ≤ limit.millis)
    (h : now + delay < horizon) (hx : Comes ⟨world, now + delay, some horizon⟩ x a t') :
    Comes ⟨world, now, some horizon⟩ (within limit delay x) (some a) t' := by
  unfold within
  rw [if_pos hdelay]
  exact (comes_pass h).bind (hx.bind comes_pure)

end Timeline

/-! ## 2. The times of calls -/

/-- When the call with number `i` begins, if all before it were answered after a delay and
repeated. -/
def RetryPolicy.begins (p : RetryPolicy) (delay start : Nat) : Nat → Nat
  | 0 => start
  | i + 1 => begins p delay start i + delay + (p.backoff i).millis

/-- When the first calls begin. -/
def RetryPolicy.times (p : RetryPolicy) (delay start count : Nat) : List Nat :=
  (List.range count).map (p.begins delay start)

theorem RetryPolicy.length_times (p : RetryPolicy) (delay start count : Nat) :
    (p.times delay start count).length = count := by
  rw [times, List.length_map, List.length_range]

theorem RetryPolicy.times_succ (p : RetryPolicy) (delay start count : Nat) :
    p.times delay start (count + 1) =
      p.times delay start count ++ [p.begins delay start count] := by
  rw [times, List.range_succ, List.map_append, List.map_singleton, times]

theorem RetryPolicy.begins_mono (p : RetryPolicy) (delay start : Nat) :
    Monotone (p.begins delay start) :=
  monotone_nat_of_le_succ fun i => by
    rw [begins]
    omega

namespace PaperVenue

variable {p : RetryPolicy} {v : PaperVenue} {c : Category} {start : Nat}

/-- When the calls for a category begin. -/
def requests (p : RetryPolicy) (v : PaperVenue) (start : Nat) (c : Category) : List Nat :=
  p.times (v.delay c) start (v.lastCall p c + 1)

/-- When the last of the calls for a category is answered. -/
def answeredAt (p : RetryPolicy) (v : PaperVenue) (start : Nat) (c : Category) : Nat :=
  p.begins (v.delay c) start (v.lastCall p c) + v.delay c

/-- All calls for some categories, one category after the other. -/
def allCalls (p : RetryPolicy) (v : PaperVenue) (start : Nat) (categories : List Category) :
    List (Category × Nat) :=
  categories.flatMap fun c => (v.requests p start c).map (c, ·)

/-- When the last call of a collection is answered. -/
def collectedAt (p : RetryPolicy) (v : PaperVenue) (start : Nat) : Nat :=
  ((Category.supported v.supportsPositions).map (v.answeredAt p start)).foldr max start

/-- The venue after a collection. -/
def collectedFrom (p : RetryPolicy) (v : PaperVenue) (start : Nat) : PaperVenue :=
  v.afterCalls (v.allCalls p start (Category.supported v.supportsPositions))

/-- What comes of a category. -/
def result (p : RetryPolicy) (v : PaperVenue) (c : Category) :
    Except ReconciliationError CategoryState :=
  (v.upcoming c (v.lastCall p c)).mapError (.connectivity v.exchange)

theorem result_cases (p : RetryPolicy) (v : PaperVenue) (c : Category) :
    (v.Fails p c ∧ v.result p c = .error (.connectivity v.exchange (v.cause c))) ∨
      (¬ v.Fails p c ∧ v.result p c = .ok (v.stateOf c)) := by
  unfold result
  rcases v.upcoming_lastCall p c with ⟨hfails, hlast⟩ | ⟨hfails, hlast⟩
  · exact .inl ⟨hfails, by rw [hlast]; rfl⟩
  · exact .inr ⟨hfails, by rw [hlast]; rfl⟩

/-! ### Calls of other categories -/

section Other

variable {calls : List (Category × Nat)} (h : timesOf c calls = [])
include h

theorem lastCall_afterCalls : (v.afterCalls calls).lastCall p c = v.lastCall p c := by
  rw [lastCall, faults_afterCalls, h, afterCalls_eq]
  simp [lastCall]

theorem requests_afterCalls : (v.afterCalls calls).requests p start c = v.requests p start c := by
  rw [requests, lastCall_afterCalls h, afterCalls_eq]
  rfl

theorem answeredAt_afterCalls :
    (v.afterCalls calls).answeredAt p start c = v.answeredAt p start c := by
  rw [answeredAt, lastCall_afterCalls h, afterCalls_eq]
  rfl

theorem result_afterCalls : (v.afterCalls calls).result p c = v.result p c := by
  rw [result, lastCall_afterCalls h, upcoming_afterCalls, h, List.length_nil, Nat.zero_add,
    afterCalls_eq]
  rfl

end Other

end PaperVenue

theorem Category.nodup_supported (supportsPositions : Bool) :
    (Category.supported supportsPositions).Nodup := by
  cases supportsPositions <;> decide

/-! ## 3. Fetching -/

namespace SimulatedExchange

open PaperVenue (afterCalls_append upcoming_afterCalls delay_afterCalls)
open Timeline (Comes comes_pure comes_get comes_set comes_pass comes_within comes_iff)

variable {s : EngineSettings} {v : PaperVenue} {c : Category} {start horizon : Nat}

/-- A call that is answered within its time limit and before the horizon. -/
theorem comes_call {limit : Span} {now : Nat} (hdelay : v.delay c ≤ limit.millis)
    (h : now + v.delay c < horizon) :
    Comes ⟨v, now, some horizon⟩ (answerWithin limit c <$> call limit c) (v.upcoming c 0)
      ⟨v.afterCalls [(c, now)], now + v.delay c, some horizon⟩ := by
  refine Comes.map (answerWithin limit c) (a := some (v.upcoming c 0)) (comes_get.bind ?_)
  rw [v.beginCall_eq]
  exact comes_set.bind (comes_within hdelay h (comes_get.bind comes_pure))

section Calls

variable (s v c start horizon)

/-- The point at which the call with number `i` begins. -/
def callBegins (i : Nat) : Timed PaperVenue :=
  ⟨v.afterCalls ((s.retry.times (v.delay c) start i).map (c, ·)),
    s.retry.begins (v.delay c) start i, some horizon⟩

/-- The point at which it is answered. -/
def callEnds (i : Nat) : Timed PaperVenue :=
  ⟨v.afterCalls ((s.retry.times (v.delay c) start (i + 1)).map (c, ·)),
    s.retry.begins (v.delay c) start i + v.delay c, some horizon⟩

variable {s v c start horizon} {i : Nat}

/-- The call with number `i` comes to the answer with that number. -/
theorem comes_callEnds (hdelay : v.delay c ≤ s.callTimeout.millis)
    (h : s.retry.begins (v.delay c) start i + v.delay c < horizon) :
    Comes (callBegins s v c start horizon i)
      (answerWithin s.callTimeout c <$> call s.callTimeout c) (v.upcoming c i)
      (callEnds s v c start horizon i) := by
  have hcall : Comes (callBegins s v c start horizon i)
      (answerWithin s.callTimeout c <$> call s.callTimeout c)
      ((v.afterCalls ((s.retry.times (v.delay c) start i).map (c, ·))).upcoming c 0) _ :=
    comes_call (by rwa [delay_afterCalls]) (by rwa [delay_afterCalls])
  rwa [delay_afterCalls, upcoming_afterCalls, timesOf_map_self, RetryPolicy.length_times,
    ← afterCalls_append, ← List.map_singleton, ← List.map_append, ← RetryPolicy.times_succ] at hcall

/-- After the delay of the policy, the next call begins. -/
theorem comes_callBegins (h : s.retry.begins (v.delay c) start (i + 1) < horizon) :
    Comes (callEnds s v c start horizon i) (Timeline.wait (s.retry.backoff i)) ()
      (callBegins s v c start horizon (i + 1)) :=
  comes_pass h

end Calls

/-- **Fetching a category of a venue**: as many calls as the policy makes, and the last answer. -/
theorem comes_fetch (hdelay : v.delay c ≤ s.callTimeout.millis)
    (h : v.answeredAt s.retry start c < horizon) :
    Comes ⟨v, start, some horizon⟩ (fetch s v.exchange c (call s.callTimeout c) Timeline.wait)
      (v.result s.retry c)
      ⟨v.afterCalls ((v.requests s.retry start c).map (c, ·)), v.answeredAt s.retry start c,
        some horizon⟩ := by
  have hends : ∀ i ≤ v.lastCall s.retry c,
      s.retry.begins (v.delay c) start i + v.delay c < horizon := fun i hi =>
    Nat.lt_of_le_of_lt (Nat.add_le_add_right (s.retry.begins_mono _ _ hi) _) h
  have hscript : s.retry.Scripted (answerWithin s.callTimeout c <$> call s.callTimeout c)
      Timeline.wait (v.upcoming c) (fun i => set (callBegins s v c start horizon i))
      (fun i => set (callEnds s v c start horizon i)) (v.lastCall s.retry c) := by
    constructor
    · exact fun i hi => comes_iff.1 (comes_callEnds hdelay (hends i hi))
    · intro i hi
      have hnext : s.retry.begins (v.delay c) start (i + 1) < horizon :=
        Nat.lt_of_le_of_lt (Nat.le_add_right _ _) (hends (i + 1) hi)
      exact comes_iff.1 (comes_callBegins hnext)
  exact (comes_iff.2 (RetryPolicy.run_scripted hscript (v.isLast_lastCall s.retry c))).map _

/-- **Fetching some categories**: each comes to what it would come to alone. -/
theorem fetchAll_eq {categories : List Category} (hnodup : categories.Nodup)
    (hdelay : ∀ c ∈ categories, v.delay c ≤ s.callTimeout.millis)
    (h : ∀ c ∈ categories, v.answeredAt s.retry start c < horizon) :
    fetchAll s start horizon v categories =
      (categories.map fun c => (c, .ok (v.result s.retry c)),
        v.afterCalls (v.allCalls s.retry start categories),
        (categories.map (v.answeredAt s.retry start)).foldr max start) := by
  induction categories generalizing v with
  | nil => rfl
  | cons c rest ih =>
    obtain ⟨hc, hrest⟩ := List.nodup_cons.1 hnodup
    obtain ⟨hdelay₀, hdelay⟩ := List.forall_mem_cons.1 hdelay
    obtain ⟨h₀, h⟩ := List.forall_mem_cons.1 h
    have hfirst := comes_fetch hdelay₀ h₀
    -- no call of the first category is one of the others
    have hother : ∀ d ∈ rest, timesOf d ((v.requests s.retry start c).map (c, ·)) = [] := by
      intro d hd
      refine timesOf_map_of_ne ?_ _
      rintro rfl
      exact hc hd
    set w := v.afterCalls ((v.requests s.retry start c).map (c, ·)) with hw
    have hresults : rest.map (fun d => (d, (.ok (w.result s.retry d) : Except Stop _))) =
        rest.map fun d => (d, .ok (v.result s.retry d)) :=
      List.map_congr_left fun d hd => by rw [hw, PaperVenue.result_afterCalls (hother d hd)]
    have hends : ∀ d ∈ rest, w.answeredAt s.retry start d = v.answeredAt s.retry start d :=
      fun d hd => PaperVenue.answeredAt_afterCalls (hother d hd)
    have hcalls : w.allCalls s.retry start rest = v.allCalls s.retry start rest :=
      List.flatMap_congr fun d hd => by rw [hw, PaperVenue.requests_afterCalls (hother d hd)]
    have hih := ih (v := w) hrest (fun d hd => (delay_afterCalls _).trans_le (hdelay d hd))
      fun d hd => (hends d hd).trans_lt (h d hd)
    rw [hresults, hcalls, List.map_congr_left hends] at hih
    unfold fetchAll
    dsimp only
    rw [Timeline.start, hfirst]
    dsimp only
    rw [hih, hw, ← afterCalls_append]
    rfl

theorem allResults_map_ok {α : Type} (f : Category → α) (categories : List Category) :
    allResults (categories.map fun c => (c, .ok (f c))) =
      .ok (categories.map fun c => (c, f c)) := by
  unfold allResults
  rw [List.mapM_map]
  exact List.mapM_pure

/-- A collection that is not cut off. -/
theorem collect_eq {e : SimulatedExchange} (hbreaks : e.breaksOn = none) (wall : Nat → Instant)
    (hdelay : ∀ c ∈ Category.supported e.venue.supportsPositions,
      e.venue.delay c ≤ s.callTimeout.millis)
    (h : e.venue.collectedAt s.retry start < horizon) :
    e.collect s wall start horizon =
      (.ok (.ofFetches e.venue.exchange (wall (e.venue.collectedAt s.retry start))
          ((Category.supported e.venue.supportsPositions).map fun c =>
            (c, e.venue.result s.retry c))),
        { e with venue := e.venue.collectedFrom s.retry start },
        e.venue.collectedAt s.retry start) := by
  have hlast : ∀ c ∈ Category.supported e.venue.supportsPositions,
      e.venue.answeredAt s.retry start c < horizon := fun c hc =>
    (List.le_max_of_le' start (List.mem_map_of_mem hc) (Nat.le_refl _)).trans_lt h
  unfold collect
  rw [hbreaks]
  dsimp only [Option.filter_none]
  rw [fetchAll_eq (Category.nodup_supported _) hdelay hlast, allResults_map_ok]
  rfl

end SimulatedExchange

/-! ## 4. Snapshots -/

namespace CategoryState

/-- The category that a state is one of. -/
def category : CategoryState → Category
  | .balances _ => .balances
  | .orders _ => .orders
  | .positions _ => .positions

/-- The state of a category without records. -/
def empty : Category → CategoryState
  | .balances => .balances .empty
  | .orders => .orders []
  | .positions => .positions []

end CategoryState

/-- Reasons in one text, if there are any. -/
def joinedReasons : List String → Option String
  | [] => none
  | reasons => some ("; ".intercalate reasons)

namespace ExchangeSnapshot

/-- What a snapshot holds of a category. -/
def stateOf (s : ExchangeSnapshot) : Category → CategoryState
  | .balances => .balances s.balances
  | .orders => .orders s.openOrders
  | .positions => .positions s.positions

variable {s : ExchangeSnapshot} {exchange : ExchangeId} {time : Instant}
  {results : List (Category × Except ReconciliationError CategoryState)}
  {categories : List Category} {r : Category → Except ReconciliationError CategoryState}

theorem stateOf_put (state : CategoryState) (c : Category) :
    (s.put state).stateOf c = if state.category = c then state else s.stateOf c := by
  cases state <;> cases c <;> rfl

/-- A snapshot holds what was fetched, and nothing of a category that was not. -/
theorem stateOf_ofFetches (hr : ∀ c state, r c = .ok state → state.category = c) (c : Category) :
    (ofFetches exchange time (categories.map fun c => (c, r c))).stateOf c =
      (if c ∈ categories then (r c).toOption else none).getD (.empty c) := by
  suffices h : ∀ s : ExchangeSnapshot,
      ((categories.map fun c => (c, r c)).foldl addFetch s).stateOf c =
        (if c ∈ categories then (r c).toOption else none).getD (s.stateOf c) by
    refine (h _).trans ?_
    cases c <;> rfl
  induction categories with
  | nil => exact fun s => rfl
  | cons d rest ih =>
    intro s
    rw [List.map_cons, List.foldl_cons, ih]
    have hstate : (s.addFetch (d, r d)).stateOf c =
        (if d = c then (r c).toOption else none).getD (s.stateOf c) := by
      cases hd : r d with
      | ok state =>
        rw [addFetch, stateOf_put, hr d state hd]
        by_cases hdc : d = c
        · simp [← hdc, hd, Except.toOption]
        · simp [hdc]
      | error error =>
        have hsame : (s.addFetch (d, .error error)).stateOf c = s.stateOf c := by cases c <;> rfl
        rw [hsame]
        by_cases hdc : d = c
        · simp [← hdc, hd, Except.toOption]
        · simp [hdc]
    simp only [hstate, List.mem_cons, eq_comm (a := c) (b := d)]
    by_cases hdc : d = c <;> by_cases hc : c ∈ rest <;> cases r c <;>
      simp [hdc, hc, Except.toOption]

/-- The reason for which a category is missing. -/
def reason? : Category × Except ReconciliationError CategoryState → Option String
  | (_, .ok _) => none
  | (c, .error e) => some (c.name ++ ": " ++ e.message)

/-- The collection error is made of the reasons, in the order of the results. -/
theorem collectionError_eq :
    (ofFetches exchange time results).collectionError =
      joinedReasons (results.filterMap reason?) := by
  -- what there is already counts as one more reason
  suffices h : ∀ s : ExchangeSnapshot, (results.foldl addFetch s).collectionError =
      joinedReasons (s.collectionError.toList ++ results.filterMap reason?) from h _
  induction results with
  | nil =>
    intro s
    cases hs : s.collectionError <;> simp [hs, joinedReasons]
  | cons result rest ih =>
    intro s
    obtain ⟨c, error | state⟩ := result
    · rw [List.foldl_cons, ih]
      cases hs : s.collectionError <;> simp only [addFetch, markDegraded, hs] <;> rfl
    · rw [List.foldl_cons, ih]
      cases state <;> rfl

theorem capturedAt_ofFetches : (ofFetches exchange time results).capturedAt = time := by
  suffices h : ∀ s : ExchangeSnapshot, (results.foldl addFetch s).capturedAt = s.capturedAt from h _
  induction results with
  | nil => exact fun s => rfl
  | cons result rest ih =>
    intro s
    rw [List.foldl_cons, ih]
    obtain ⟨c, error | state⟩ := result
    · rfl
    · cases state <;> rfl

end ExchangeSnapshot

/-! ## 5. What is collected, and what it costs -/

namespace PaperVenue

/-- `v.SeenAs p x`: the snapshot has everything that the account holds, except for the categories
that the policy gives up on; it says which these are, and why. -/
structure SeenAs (p : RetryPolicy) (v : PaperVenue) (x : ExchangeSnapshot) : Prop where
  exchange : x.exchange = v.exchange
  degraded_iff : ∀ c, x.isDegraded c = true ↔
    c ∈ Category.supported v.supportsPositions ∧ v.Fails p c
  balances : x.balances = if x.isDegraded .balances = false then v.account.balances else .empty
  openOrders : x.openOrders = if x.isDegraded .orders = false then
    v.account.orders.values.filter (·.status.isOpen) else []
  openOrders_by_id : v.Operated → x.openOrders.Pairwise fun a b => compare a.id b.id = .lt
  /-- Where positions are not supported, nobody asks for them. -/
  positions : x.positions = if v.supportsPositions ∧ x.isDegraded .positions = false then
    v.account.positions.values else []
  collectionError_iff : x.collectionError.isSome = true ↔ ∃ c, x.isDegraded c = true
  collectionError : x.collectionError = joinedReasons (x.degraded.members.map fun c =>
    c.name ++ ": " ++ (ReconciliationError.connectivity v.exchange (v.cause c)).message)

/-- `v.Spends p start v'`: each category is called by the rule for repetitions, as its own fault and
the connection have it, and its fault is used up by as many calls.  A category that is not
supported is not called.  In whatever order the calls of the categories begin, the answers and the
venue afterwards are the same. -/
structure Spends (p : RetryPolicy) (v : PaperVenue) (start : Nat) (v' : PaperVenue) : Prop where
  supported : ∀ c ∈ Category.supported v.supportsPositions, ∃ k,
    IsLeast {k | k = p.maxRetries + 1 ∨
      ∃ i, k = i + 1 ∧ RetryPolicy.Stands ConnectorError.Passes (some (v.upcoming c i))} k ∧
    k = p.repetitions v.connected (v.faults.get c) + 1 ∧
    v'.calls.get c = (p.times (v.delay c) start k).reverse ++ v.calls.get c ∧
    v'.faults.get c = (v.faults.get c).map (·.after k)
  unsupported : ∀ c ∉ Category.supported v.supportsPositions,
    v'.calls.get c = v.calls.get c ∧ v'.faults.get c = v.faults.get c
  unchanged : v' = { v with calls := v'.calls, faults := v'.faults }
  answered : ∀ calls later c now,
    (v.afterCalls (calls ++ later)).answer c ((v.afterCalls calls).beginCall c now).2.1 =
      v.upcoming c (timesOf c calls).length
  interleaved : ∀ calls, (∀ c, timesOf c calls =
      if c ∈ Category.supported v.supportsPositions then v.requests p start c else []) →
    v.afterCalls calls = v'

variable {p : RetryPolicy} {v : PaperVenue} {start : Nat}

theorem spends_collectedFrom (p : RetryPolicy) (v : PaperVenue) (start : Nat) :
    v.Spends p start (v.collectedFrom p start) := by
  have htimes : ∀ c, timesOf c (v.allCalls p start (Category.supported v.supportsPositions)) =
      if c ∈ Category.supported v.supportsPositions then v.requests p start c else [] :=
    timesOf_flatMap (Category.nodup_supported _) _
  refine ⟨fun c hc => ⟨v.lastCall p c + 1, ?_, rfl, ?_, ?_⟩, fun c hc => ?_, ?_,
    fun calls later _ now => answer_afterCalls calls later now, fun calls hcalls => ?_⟩
  · refine RetryPolicy.IsLast.isLeast_calls ?_
    simpa only [ConnectorError.stands_some_iff] using v.isLast_lastCall p c
  · rw [collectedFrom, calls_afterCalls, htimes, if_pos hc]
    rfl
  · rw [collectedFrom, faults_afterCalls, htimes, if_pos hc, requests, RetryPolicy.length_times]
  · rw [collectedFrom, calls_afterCalls, faults_afterCalls, htimes, if_neg hc]
    simp
  · rw [collectedFrom, afterCalls_eq]
  · exact afterCalls_congr fun c => (hcalls c).trans (htimes c).symm

theorem category_stateOf (c : Category) : (v.stateOf c).category = c := by cases c <;> rfl

/-- The snapshot that a collection from the venue gives. -/
def snapshot (p : RetryPolicy) (v : PaperVenue) (time : Instant) : ExchangeSnapshot :=
  .ofFetches v.exchange time ((Category.supported v.supportsPositions).map fun c =>
    (c, v.result p c))

section Snapshot

variable (p v) (time : Instant) (c : Category)

/-- A category is missing if it was asked for and the policy gave up on it. -/
theorem isDegraded_snapshot : (v.snapshot p time).isDegraded c =
    decide (c ∈ Category.supported v.supportsPositions ∧ v.Fails p c) := by
  have hfails : (∃ e, v.result p c = .error e) ↔ v.Fails p c := by
    rcases v.result_cases p c with ⟨hfails, hresult⟩ | ⟨hfails, hresult⟩
    · exact iff_of_true ⟨_, hresult⟩ hfails
    · simp [hresult, hfails]
  rw [Bool.eq_iff_iff, decide_eq_true_iff, snapshot, ExchangeSnapshot.isDegraded_ofFetches,
    ← hfails]
  simp only [List.mem_map, Prod.mk.injEq]
  constructor
  · rintro ⟨e, d, hd, rfl, he⟩
    exact ⟨hd, e, he⟩
  · rintro ⟨hc, e, he⟩
    exact ⟨e, c, hc, rfl, he⟩

theorem stateOf_snapshot : (v.snapshot p time).stateOf c =
    if c ∈ Category.supported v.supportsPositions ∧ (v.snapshot p time).isDegraded c = false then
      v.stateOf c
    else .empty c := by
  have hcategory : ∀ c state, v.result p c = .ok state → state.category = c := by
    intro c state hstate
    rcases v.result_cases p c with ⟨-, hresult⟩ | ⟨-, hresult⟩
    · cases hresult.symm.trans hstate
    · cases hresult.symm.trans hstate
      exact v.category_stateOf c
  rw [isDegraded_snapshot]
  refine (ExchangeSnapshot.stateOf_ofFetches hcategory c).trans ?_
  by_cases hc : c ∈ Category.supported v.supportsPositions
  · rcases v.result_cases p c with ⟨hfails, hresult⟩ | ⟨hfails, hresult⟩ <;>
      simp [hc, hfails, hresult, Except.toOption]
  · simp [hc]

/-- The collection error names the missing categories in their order, each with its cause. -/
theorem collectionError_snapshot : (v.snapshot p time).collectionError =
    joinedReasons ((v.snapshot p time).degraded.members.map fun c =>
      c.name ++ ": " ++ (ReconciliationError.connectivity v.exchange (v.cause c)).message) := by
  have hsupported : Category.supported v.supportsPositions =
      Category.all.filter (· ∈ Category.supported v.supportsPositions) := by
    cases v.supportsPositions <;> decide
  refine ExchangeSnapshot.collectionError_eq.trans (congrArg joinedReasons ?_)
  rw [List.filterMap_map, hsupported, List.filterMap_filter, PerCategory.members,
    ← List.filterMap_eq_map, List.filterMap_filter]
  refine List.filterMap_congr fun c _ => ?_
  have hdegraded : (v.snapshot p time).degraded.get c = _ := isDegraded_snapshot p v time c
  rw [hdegraded]
  by_cases hc : c ∈ Category.supported v.supportsPositions
  · rcases v.result_cases p c with ⟨hfails, hresult⟩ | ⟨hfails, hresult⟩ <;>
      simp [hc, hfails, hresult, ExchangeSnapshot.reason?]
  · simp [hc]

end Snapshot

theorem seenAs_snapshot (p : RetryPolicy) (v : PaperVenue) (time : Instant) :
    v.SeenAs p (v.snapshot p time) := by
  have hstate := v.stateOf_snapshot p time
  have hbalances : .balances ∈ Category.supported v.supportsPositions := by
    cases v.supportsPositions <;> decide
  have horders : .orders ∈ Category.supported v.supportsPositions := by
    cases v.supportsPositions <;> decide
  have hpositions : .positions ∈ Category.supported v.supportsPositions ↔
      v.supportsPositions = true := by
    cases v.supportsPositions <;> decide
  have hopen : (v.snapshot p time).openOrders =
      if (v.snapshot p time).isDegraded .orders = false then
        v.account.orders.values.filter (·.status.isOpen) else [] := by
    have h := hstate .orders
    simp only [horders, true_and] at h
    exact CategoryState.orders.inj (h.trans (apply_ite CategoryState.orders _ _ _).symm)
  refine {
    exchange := ExchangeSnapshot.exchange_ofFetches
    degraded_iff := fun c => by rw [isDegraded_snapshot, decide_eq_true_iff]
    balances := ?_
    openOrders := hopen
    openOrders_by_id := fun hv => ?_
    positions := ?_
    collectionError_iff := ?_
    collectionError := v.collectionError_snapshot p time }
  · have h := hstate .balances
    simp only [hbalances, true_and] at h
    exact CategoryState.balances.inj (h.trans (apply_ite CategoryState.balances _ _ _).symm)
  · rw [hopen]
    split
    · exact hv.filed.pairwise_values.filter _
    · exact .nil
  · have h := hstate .positions
    simp only [hpositions] at h
    exact CategoryState.positions.inj (h.trans (apply_ite CategoryState.positions _ _ _).symm)
  · rw [snapshot, ExchangeSnapshot.collectionError_ofFetches]
    simp only [ExchangeSnapshot.isDegraded_ofFetches]

end PaperVenue

namespace SimulatedExchange

/-- **A collection is degraded in exactly what fails.**  From a venue that answers in time, a
collection is complete at some time; it is missing the categories that the policy gives up on, and
the calls that it makes are those of the rule for repetitions, for each category on its own. -/
theorem degrades_what_fails (s : EngineSettings) (v : PaperVenue) (probe : Option ProbeScript)
    (wall : Nat → Instant) (start : Nat)
    (hdelay : ∀ c ∈ Category.supported v.supportsPositions,
      v.delay c * 1000000 < s.callTimeout.nanos) :
    ∃ last x v', (∀ horizon, last < horizon → collect s wall start horizon ⟨v, probe, none⟩ =
        (.ok x, ⟨v', probe, none⟩, last)) ∧
      x.capturedAt = wall last ∧ v.SeenAs s.retry x ∧ v.Spends s.retry start v' := by
  have hmillis : ∀ c ∈ Category.supported v.supportsPositions,
      v.delay c ≤ s.callTimeout.millis := by
    intro c hc
    rw [Span.millis, Nat.le_div_iff_mul_le (by decide)]
    exact Nat.le_of_lt (hdelay c hc)
  refine ⟨v.collectedAt s.retry start, _, v.collectedFrom s.retry start, fun horizon h =>
    collect_eq (e := ⟨v, probe, none⟩) rfl wall hmillis h, ?_, v.seenAs_snapshot s.retry _,
    v.spends_collectedFrom s.retry start⟩
  exact ExchangeSnapshot.capturedAt_ofFetches

/-- A venue that is slow, whose orders fail twice, and whose positions always fail. -/
def troubledVenue : PaperVenue :=
  { PaperVenue.new (.of .exchange "alpha") with
    latency := 5
    faults := {
      balances := none
      orders := some ⟨⟨.transport, "reset"⟩, some 2⟩
      positions := some ⟨⟨.authentication, "denied"⟩, none⟩ } }

/-- Two repetitions are enough for the orders, and positions are not asked for twice. -/
theorem degrades_what_fails_troubled :
    (∀ c ∈ Category.supported troubledVenue.supportsPositions,
      troubledVenue.delay c * 1000000 < EngineSettings.standard.callTimeout.nanos) ∧
    ∃ last x v', (∀ horizon, last < horizon →
        collect .standard (fun _ => .epoch) 0 horizon ⟨troubledVenue, none, none⟩ =
          (.ok x, ⟨v', none, none⟩, last)) ∧
      (∀ c, x.isDegraded c = true ↔ c = .positions) ∧
      v'.faults.get .orders = some ⟨⟨.transport, "reset"⟩, some 0⟩ ∧
      (v'.calls.get .orders).length = 3 ∧ (v'.calls.get .positions).length = 1 := by
  have hdelay : ∀ c ∈ Category.supported troubledVenue.supportsPositions,
      troubledVenue.delay c * 1000000 < EngineSettings.standard.callTimeout.nanos := by decide
  obtain ⟨last, x, v', hcollect, -, hx, hv⟩ :=
    degrades_what_fails .standard troubledVenue none (fun _ => .epoch) 0 hdelay
  refine ⟨hdelay, last, x, v', hcollect, fun c => ?_, ?_⟩
  · rw [hx.degraded_iff]
    cases c <;> decide
  · obtain ⟨k, -, rfl, horders, hfaults⟩ := hv.supported .orders (by decide)
    obtain ⟨k, -, rfl, hpositions, -⟩ := hv.supported .positions (by decide)
    rw [horders, hpositions, hfaults]
    decide

end SimulatedExchange

end Reconciliation
