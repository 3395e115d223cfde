/-
# What a finding is about

Every finding but those of lost data is about an asset, an order id or a symbol.  A category is
compared by a scan of its keys, each of which is one subject: the findings at a key, and the
reports of malformed records under it, are about this subject and no other.  What a comparison
says of one subject, and what it says of all the others, can so be told apart scan by scan.

* `Subject`, `Finding.Concerns`, `Finding.Compares`: what a finding is about;
* `Scan`: how a category is compared, and `Scan.About`: what its findings are about;
* `compareCategory_balances_eq_ok_iff`, `compareCategory_orders`, `compareCategory_positions`: each
  category is compared by a scan.
-/
import Reconciliation.Proofs.Compare.Judgement

namespace Reconciliation

/-! ## 1. Subjects -/

/-- What records are about. -/
inductive Subject
  | asset (a : AssetId)
  | order (id : OrderId)
  | symbol (s : Symbol)
  deriving DecidableEq

namespace Subject

def category : Subject → Category
  | .asset _ => .balances
  | .order _ => .orders
  | .symbol _ => .positions

def text : Subject → String
  | .asset a => a.text
  | .order id => id
  | .symbol s => s.text

theorem ext_text {e e' : Subject} (hc : e.category = e'.category) (h : e.text = e'.text) :
    e = e' := by
  cases e <;> cases e' <;> cases hc
  · exact congrArg asset (Identifier.ext_text h)
  · exact congrArg order h
  · exact congrArg symbol (Identifier.ext_text h)

theorem asset_injective : Function.Injective asset := fun _ _ h => asset.inj h

theorem order_injective : Function.Injective order := fun _ _ h => order.inj h

theorem symbol_injective : Function.Injective symbol := fun _ _ h => symbol.inj h

/-- A discrepancy of the type and with the entity compares the values that the sides have of the
subject. -/
def ComparedBy (e : Subject) (type : DiscrepancyType) (entity : String) : Prop :=
  type.compared = some e.category ∧ entity = e.text

/-- One of the type and with the entity reports a malformed record of the subject. -/
def RefusedBy (e : Subject) (type : DiscrepancyType) (entity : String) : Prop :=
  type = .dataIntegrity ∧ (entity = integrityEntity .ledger e.category e.text ∨
    entity = integrityEntity .exchange e.category e.text)

instance (e : Subject) (type : DiscrepancyType) (entity : String) :
    Decidable (e.ComparedBy type entity) := inferInstanceAs (Decidable (_ ∧ _))

instance (e : Subject) (type : DiscrepancyType) (entity : String) :
    Decidable (e.RefusedBy type entity) := inferInstanceAs (Decidable (_ ∧ _))

theorem refusedBy_iff {e : Subject} {type : DiscrepancyType} {entity : String} :
    e.RefusedBy type entity ↔
      type = .dataIntegrity ∧ ∃ source, entity = integrityEntity source e.category e.text := by
  refine and_congr_right fun _ => ⟨?_, ?_⟩
  · rintro (h | h)
    · exact ⟨.ledger, h⟩
    · exact ⟨.exchange, h⟩
  · rintro ⟨_ | _, h⟩
    · exact .inl h
    · exact .inr h

end Subject

/-- The discrepancy compares the values that the sides have of the subject. -/
def Discrepancy.Compares (d : Discrepancy) (e : Subject) : Prop := e.ComparedBy d.type d.entity

/-- The discrepancy is about the subject, or about a malformed record of it. -/
def Discrepancy.Concerns (d : Discrepancy) (e : Subject) : Prop :=
  d.Compares e ∨ e.RefusedBy d.type d.entity

instance (d : Discrepancy) (e : Subject) : Decidable (d.Concerns e) :=
  inferInstanceAs (Decidable (e.ComparedBy _ _ ∨ e.RefusedBy _ _))

namespace Finding

def Compares (f : Finding) (e : Subject) : Prop := e.ComparedBy f.type f.entity

def Concerns (f : Finding) (e : Subject) : Prop := f.Compares e ∨ e.RefusedBy f.type f.entity

instance (f : Finding) (e : Subject) : Decidable (f.Concerns e) :=
  inferInstanceAs (Decidable (e.ComparedBy _ _ ∨ e.RefusedBy _ _))

variable {f : Finding} {e : Subject} {c : Category}

theorem compares_discrepancy {exchange : ExchangeId} {time : Instant} :
    (f.discrepancy exchange time).Compares e ↔ f.Compares e := by
  rw [Discrepancy.Compares, type_discrepancy, entity_discrepancy, Compares]

theorem concerns_discrepancy {exchange : ExchangeId} {time : Instant} :
    (f.discrepancy exchange time).Concerns e ↔ f.Concerns e := by
  rw [Discrepancy.Concerns, compares_discrepancy, type_discrepancy, entity_discrepancy, Concerns]

/-- What compares values is about the subject whose values they are. -/
theorem concerns_iff_of_compared (h : f.type.compared = some c) :
    f.Concerns e ↔ c = e.category ∧ f.entity = e.text := by
  have hrefused : ¬ e.RefusedBy f.type f.entity := by
    rintro ⟨htype, -⟩
    rw [htype] at h
    cases h
  rw [Concerns, or_iff_left hrefused, Compares, Subject.ComparedBy, h, Option.some.injEq]

/-- A report of a malformed record is about the subject under which the record is kept. -/
theorem concerns_dataIntegrity_iff {source : Source} {key : String} {problem : RecordProblem} :
    (dataIntegrity source key problem).Concerns e ↔
      problem.category = e.category ∧ key = e.text := by
  have hcompared : ¬ (dataIntegrity source key problem).Compares e := by
    rintro ⟨h, -⟩
    cases h
  rw [Concerns, or_iff_right hcompared, Subject.refusedBy_iff]
  constructor
  · rintro ⟨-, source', h⟩
    obtain ⟨-, hc, hkey⟩ := integrityEntity_inj h
    exact ⟨hc, hkey⟩
  · rintro ⟨hc, hkey⟩
    refine ⟨rfl, source, ?_⟩
    rw [← hc, ← hkey]
    rfl

theorem category_of_concerns (h : f.Concerns e) : f.category = some e.category := by
  rcases h with ⟨hcompared, -⟩ | h
  · exact category_of_compared hcompared
  · obtain ⟨htype, source, hentity⟩ := Subject.refusedBy_iff.1 h
    exact category_of_integrity htype hentity

end Finding

namespace Detection

open Finding (Concerns Compares)

variable {t : Tolerances} {s : ExchangeSnapshot} {x : ExpectedState} {c : Category}
  {e : Subject} {f : Finding} {findings : List Finding}

/-! ## 2. Scans -/

/-- How a category is compared: a check of each key, and the malformed records of each side. -/
structure Scan (κ : Type) where
  keys : List κ
  check : κ → Checked (Option Finding)
  problems : Source → List (κ × RecordProblem)

namespace Scan

variable {κ : Type} {subject : κ → Subject} {a : Scan κ}

def run (a : Scan κ) (subject : κ → Subject) : Checked (List Finding) := do
  return keyedFindings (fun k => (subject k).text) a.problems (← gather a.check a.keys)

theorem run_eq_ok_iff : a.run subject = .ok findings ↔
    ∃ matched, gather a.check a.keys = .ok matched ∧
      keyedFindings (fun k => (subject k).text) a.problems matched = findings := by
  simp only [run, bind_eq_ok_iff, pure_eq_ok_iff]

/-- What a scan finds are its malformed records, and what it finds at its keys. -/
theorem mem_of_run (h : a.run subject = .ok findings) :
    f ∈ findings ↔
      (∃ source, ∃ p ∈ a.problems source,
        Finding.dataIntegrity source (subject p.1).text p.2 = f) ∨
      ∃ k ∈ a.keys, a.check k = .ok (some f) := by
  obtain ⟨matched, hmatched, rfl⟩ := run_eq_ok_iff.1 h
  rw [mem_keyedFindings, mem_of_gather hmatched]

/-- `a.About subject c`: what is found at a key, or refused under it, is about its subject, which
is of the category. -/
structure About (a : Scan κ) (subject : κ → Subject) (c : Category) : Prop where
  injective : Function.Injective subject
  category : ∀ k, (subject k).category = c
  problems : ∀ source, ∀ p ∈ a.problems source, p.2.category = c
  check : FindsByKey c (fun k => (subject k).text) a.check

namespace About

variable {k : κ}

theorem subject_eq_iff (h : a.About subject c) :
    c = e.category ∧ (subject k).text = e.text ↔ subject k = e := by
  constructor
  · rintro ⟨hc, htext⟩
    exact Subject.ext_text ((h.category k).trans hc) htext
  · rintro rfl
    exact ⟨(h.category k).symm, rfl⟩

theorem concerns_iff (h : a.About subject c) (hk : a.check k = .ok (some f)) :
    f.Concerns e ↔ subject k = e := by
  obtain ⟨hcompared, hentity⟩ := h.check k f hk
  rw [Finding.concerns_iff_of_compared hcompared, hentity]
  exact h.subject_eq_iff

theorem compares_iff (h : a.About subject c) (hk : a.check k = .ok (some f)) :
    f.Compares e ↔ subject k = e := by
  obtain ⟨hcompared, hentity⟩ := h.check k f hk
  rw [Finding.Compares, Subject.ComparedBy, hcompared, hentity, Option.some.injEq]
  exact h.subject_eq_iff

theorem concerns_problem_iff (h : a.About subject c) {source : Source} {p : κ × RecordProblem}
    (hp : p ∈ a.problems source) :
    (Finding.dataIntegrity source (subject p.1).text p.2).Concerns e ↔ subject p.1 = e := by
  rw [Finding.concerns_dataIntegrity_iff, h.problems source p hp]
  exact h.subject_eq_iff

end About

end Scan

/-! ## 3. The categories -/

/-- The check of the keys that are not malformed. -/
def checkExcept {κ : Type} [DecidableEq κ] (malformed : List κ)
    (check : κ → Checked (Option Finding)) (k : κ) : Checked (Option Finding) :=
  if k ∈ malformed then return none else check k

section CheckExcept

variable {κ : Type} [DecidableEq κ] {malformed : List κ} {check : κ → Checked (Option Finding)}
  {k : κ}

theorem checkExcept_of_mem (h : k ∈ malformed) : checkExcept malformed check k = .ok none :=
  if_pos h

theorem checkExcept_of_not_mem (h : k ∉ malformed) : checkExcept malformed check k = check k :=
  if_neg h

theorem check_of_checkExcept (h : checkExcept malformed check k = .ok (some f)) :
    check k = .ok (some f) := by
  by_cases hk : k ∈ malformed
  · rw [checkExcept_of_mem hk] at h
    cases h
  · rwa [checkExcept_of_not_mem hk] at h

end CheckExcept

/-- The scan of the balances of two sides, of which some are malformed. -/
def balanceScan (t : Tolerances) (balances : Source → SortedMap AssetId Balance)
    (problems : Source → List (AssetId × RecordProblem)) : Scan AssetId where
  keys := unionKeys (balances .ledger) (balances .exchange)
  check := checkExcept ((problems .ledger ++ problems .exchange).map (·.1)) fun a =>
    compareBalance t a ((balances .ledger).get? a) ((balances .exchange).get? a)
  problems := problems

theorem check_balanceScan (balances : Source → SortedMap AssetId Balance)
    (problems : Source → List (AssetId × RecordProblem)) (a : AssetId) :
    (balanceScan t balances problems).check a =
      checkExcept ((problems .ledger ++ problems .exchange).map (·.1))
        (fun a => compareBalance t a ((balances .ledger).get? a) ((balances .exchange).get? a)) a :=
  rfl

/-- The scan of the records of two sides by their keys, of which `judge` compares those under one
key. -/
def indexScan {κ α : Type} [Ord κ] [Std.TransOrd κ] [Std.LawfulEqOrd κ] (key : α → κ)
    (problem : α → Option RecordProblem) (repeated : RecordProblem)
    (judge : κ → Option (Option α) → Option (Option α) → Checked (Option Finding))
    (records : Source → List α) : Scan κ :=
  let index source := Index.ofList key problem repeated (records source)
  { keys := unionKeys (index .ledger).records (index .exchange).records
    check k := judge k ((index .ledger).records.get? k) ((index .exchange).records.get? k)
    problems source := (index source).problems }

def orderScan (t : Tolerances) (orders : Source → List Order) : Scan OrderId :=
  indexScan (·.id) orderProblem .repeatedOrder (fun _ => compareOrder t) orders

def positionScan (t : Tolerances) (positions : Source → List Position) : Scan Symbol :=
  indexScan (·.symbol) positionProblem .repeatedSymbol (comparePosition t) positions

theorem about_balanceScan {balances : Source → SortedMap AssetId Balance}
    {problems : Source → List (AssetId × RecordProblem)}
    (h : ∀ source, balanceProblems t (balances source) = .ok (problems source)) :
    (balanceScan t balances problems).About .asset .balances where
  injective := Subject.asset_injective
  category _ := rfl
  problems source := category_of_mem_balanceProblems (h source)
  check := findsByKey_compareBalance _ _ _

theorem about_orderScan (orders : Source → List Order) :
    (orderScan t orders).About .order .orders where
  injective := Subject.order_injective
  category _ := rfl
  problems _ := category_of_mem_problems (fun _ _ => category_orderProblem) rfl
  check := findsByKey_compareOrder _ _

theorem about_positionScan (positions : Source → List Position) :
    (positionScan t positions).About .symbol .positions where
  injective := Subject.symbol_injective
  category _ := rfl
  problems _ := category_of_mem_problems (fun _ _ => category_positionProblem) rfl
  check := findsByKey_comparePosition _ _

end Detection

/-! ## 4. The records of both sides -/

namespace ExchangeSnapshot

/-- What the exchange reports, as the ledger would expect it. -/
def reported (s : ExchangeSnapshot) : ExpectedState := ⟨s.balances, s.openOrders, s.positions⟩

/-- The snapshot with other records. -/
def withRecords (s : ExchangeSnapshot) (r : ExpectedState) : ExchangeSnapshot :=
  { s with balances := r.balances, openOrders := r.orders, positions := r.positions }

/-- What both sides have on record. -/
def sides (s : ExchangeSnapshot) (x : ExpectedState) : Source → ExpectedState :=
  Source.pick x s.reported

end ExchangeSnapshot

namespace Detection

variable {t : Tolerances} {s : ExchangeSnapshot} {x : ExpectedState} {c : Category}
  {e : Subject} {f : Finding} {findings : List Finding}

theorem compareCategory_of_isDegraded (h : s.isDegraded c = true) :
    compareCategory t x s c = .ok [.detectionSkipped c] := if_pos h

theorem compareCategory_balances (h : s.isDegraded .balances = false) :
    compareCategory t x s .balances =
      compareBalances t (s.sides x .ledger).balances (s.sides x .exchange).balances :=
  if_neg (by simp [h])

theorem compareCategory_balances_eq_ok_iff (h : s.isDegraded .balances = false) :
    compareCategory t x s .balances = .ok findings ↔
      ∃ problems : Source → List (AssetId × RecordProblem),
        (∀ source, balanceProblems t (s.sides x source).balances = .ok (problems source)) ∧
          (balanceScan t (fun source => (s.sides x source).balances) problems).run .asset =
            .ok findings := by
  simp only [compareCategory_balances h, compareBalances, Scan.run_eq_ok_iff, bind_eq_ok_iff,
    pure_eq_ok_iff]
  constructor
  · rintro ⟨ledger, hledger, exchange, hexchange, matched, hmatched, rfl⟩
    refine ⟨Source.pick ledger exchange, fun source => ?_, matched, hmatched, rfl⟩
    cases source with
    | ledger => exact hledger
    | exchange => exact hexchange
  · rintro ⟨problems, hproblems, matched, hmatched, rfl⟩
    exact ⟨_, hproblems .ledger, _, hproblems .exchange, matched, hmatched, rfl⟩

theorem compareCategory_orders (h : s.isDegraded .orders = false) :
    compareCategory t x s .orders =
      (orderScan t fun source => (s.sides x source).orders).run .order :=
  if_neg (by simp [h])

theorem compareCategory_positions (h : s.isDegraded .positions = false) :
    compareCategory t x s .positions =
      (positionScan t fun source => (s.sides x source).positions).run .symbol :=
  if_neg (by simp [h])

end Detection

end Reconciliation
