/-
# Each key is judged once

A comparison says at most one thing about the values under a key, and nothing at all if a record
under it is malformed or there are several on one side.  Those are reported instead, record by
record and side by side.

* `Judged`: this, for the keys of one category;
* `Judgement`: for all categories, also those that were skipped;
* `ExchangeSnapshot.judgement_compareWithLedger`: every comparison that comes out is such a
  judgement.
-/
import Mathlib.Data.List.Nodup
import Reconciliation.Proofs.Compare.Agreement
import Reconciliation.Proofs.Compare.Findings

namespace Reconciliation

/-! ## 1. Malformed records -/

instance (t : Tolerances) : DecidablePred (Balance.Credible t) := fun b =>
  decidable_of_iff (Detection.balanceProblem t b = .ok none) Detection.balanceProblem_eq_none_iff

instance : DecidablePred Order.Credible := fun o =>
  decidable_of_iff (Detection.orderProblem o = none) Detection.orderProblem_eq_none_iff

instance : DecidablePred Position.Credible := fun p =>
  decidable_of_iff (Detection.positionProblem p = none) Detection.positionProblem_eq_none_iff

/-- The entity of a malformed record. -/
def integrityEntity (source : Source) (c : Category) (key : String) : String :=
  s!"{source.name}:{c.name}:{key}"

theorem append_cons_inj_left {α : Type} {a : α} {l l' m m' : List α} (hl : a ∉ l)
    (hl' : a ∉ l') (h : l ++ a :: m = l' ++ a :: m') : l = l' ∧ m = m' := by
  induction l generalizing l' with
  | nil =>
    cases l' with
    | nil => exact ⟨rfl, (List.cons.inj h).2⟩
    | cons b _ => exact absurd ((List.cons.inj h).1 ▸ List.mem_cons_self) hl'
  | cons b l ih =>
    cases l' with
    | nil => exact absurd ((List.cons.inj h).1 ▸ List.mem_cons_self) hl
    | cons b' l' =>
      obtain ⟨rfl, h'⟩ : b = b' ∧ l ++ a :: m = l' ++ a :: m' := List.cons.inj h
      obtain ⟨rfl, hm⟩ := ih (List.not_mem_of_not_mem_cons hl) (List.not_mem_of_not_mem_cons hl') h'
      exact ⟨rfl, hm⟩

/-- The entity of a malformed record tells its side, its category and its key. -/
theorem integrityEntity_inj {source source' : Source} {c c' : Category} {key key' : String}
    (h : integrityEntity source c key = integrityEntity source' c' key') :
    source = source' ∧ c = c' ∧ key = key' := by
  have hchars : ∀ source c key, (integrityEntity source c key).toList =
      source.name.toList ++ ':' :: (c.name.toList ++ ':' :: key.toList) := by
    intro source c key
    simp [integrityEntity, toString]
  have hsource : ∀ source : Source, ':' ∉ source.name.toList := fun source => by
    cases source <;> decide
  have hcategory : ∀ c : Category, ':' ∉ c.name.toList := fun c => by cases c <;> decide
  have h := congrArg String.toList h
  rw [hchars, hchars] at h
  obtain ⟨hs, h⟩ := append_cons_inj_left (hsource _) (hsource _) h
  obtain ⟨hc, h⟩ := append_cons_inj_left (hcategory _) (hcategory _) h
  refine ⟨?_, ?_, String.toList_inj.1 h⟩
  · cases source <;> cases source' <;> first | rfl | exact absurd hs (by decide)
  · cases c <;> cases c' <;> first | rfl | exact absurd hc (by decide)

namespace Finding

/-- The category that the finding is about.  A failed collection is not about one. -/
def category : Finding → Option Category
  | .connectivity .. => none
  | .detectionSkipped c => some c
  | .dataIntegrity _ _ problem => some problem.category
  | f => f.type.compared

variable {f : Finding} {c : Category}

theorem category_eq_none_iff : f.category = none ↔ f.type = .connectivity := by
  cases f <;> simp [category, type, DiscrepancyType.compared]

theorem category_of_compared (h : f.type.compared = some c) : f.category = some c := by
  cases f <;> first | exact h | cases h

theorem category_of_integrity {source : Source} {key : String} (htype : f.type = .dataIntegrity)
    (hentity : f.entity = integrityEntity source c key) : f.category = some c := by
  cases f <;> cases htype
  obtain ⟨-, hc, -⟩ := integrityEntity_inj hentity
  exact congrArg some hc

end Finding

/-! ## 2. What is said of a key -/

namespace Discrepancy

/-- How many discrepancies compare the values under a key. -/
def comparedCount (c : Category) (key : String) (ds : List Discrepancy) : Nat :=
  ds.countP fun d => d.type.compared = some c ∧ d.entity = key

/-- How many discrepancies report a malformed record that one side has under a key. -/
def integrityCount (source : Source) (c : Category) (key : String) (ds : List Discrepancy) : Nat :=
  ds.countP fun d => d.type = .dataIntegrity ∧ d.entity = integrityEntity source c key

end Discrepancy

/-- What belongs to a side. -/
def Source.pick {α : Type} (ledger exchange : α) : Source → α
  | .ledger => ledger
  | .exchange => exchange

namespace Detection

open Discrepancy (comparedCount integrityCount)

/-- `Judged c name Credible records ds`: what the discrepancies say of the keys of a category, of
which each side has the given records in order. -/
structure Judged {κ α : Type} (c : Category) (name : κ → String) (Credible : α → Prop)
    [DecidablePred Credible] (records : Source → κ → List α) (ds : List Discrepancy) : Prop where
  once : ∀ key, comparedCount c key ds ≤ 1
  /-- A malformed record, or a second one on the same side, leaves nothing to compare. -/
  excluded : ∀ source k, (∃ a ∈ records source k, ¬ Credible a) ∨ 1 < (records source k).length →
    comparedCount c (name k) ds = 0
  /-- Every malformed record is reported, and every other one that is not the first. -/
  reported : ∀ source k, integrityCount source c (name k) ds =
    (records source k).countP (¬ Credible ·) + (records source k).tail.countP (Credible ·)

section Sides

variable (x : ExpectedState) (s : ExchangeSnapshot) (source : Source)

/-- The balance that a side has of an asset. -/
def balancesOf (a : AssetId) : List Balance := ((source.pick x.balances s.balances).get? a).toList

/-- The orders that a side has under an id. -/
def ordersOf (id : OrderId) : List Order := (source.pick x.orders s.openOrders).filter (·.id = id)

/-- The positions that a side has in a symbol. -/
def positionsOf (symbol : Symbol) : List Position :=
  (source.pick x.positions s.positions).filter (·.symbol = symbol)

end Sides

/-- `Judgement t x s ds`: the discrepancies judge every key of the categories that were collected,
and none of the others. -/
structure Judgement (t : Tolerances) (x : ExpectedState) (s : ExchangeSnapshot)
    (ds : List Discrepancy) : Prop where
  balances : s.isDegraded .balances = false →
    Judged .balances Identifier.text (Balance.Credible t) (balancesOf x s) ds
  orders : s.isDegraded .orders = false → Judged .orders id Order.Credible (ordersOf x s) ds
  positions : s.isDegraded .positions = false →
    Judged .positions Identifier.text Position.Credible (positionsOf x s) ds
  skipped : ∀ c, s.isDegraded c = true → ∀ key,
    comparedCount c key ds = 0 ∧ ∀ source, integrityCount source c key ds = 0

/-! ## 3. The findings of one category -/

variable {t : Tolerances} {s : ExchangeSnapshot} {x : ExpectedState} {c : Category}
  {findings : List Finding}

theorem nodup_entity_gather {κ : Type} {text : κ → String} {check : κ → Checked (Option Finding)}
    (hcheck : FindsByKey c text check) (htext : Function.Injective text) {keys : List κ}
    (hkeys : keys.Nodup) (h : gather check keys = .ok findings) :
    (findings.map Finding.entity).Nodup :=
  (sublist_map_gather (fun k f hk => (hcheck k f hk).2) h).nodup (List.Nodup.map htext hkeys)

theorem entity_ne_of_check_eq_none {κ : Type} {text : κ → String}
    {check : κ → Checked (Option Finding)} (hcheck : FindsByKey c text check)
    (htext : Function.Injective text) {keys : List κ} (h : gather check keys = .ok findings)
    {k : κ} (hk : check k = .ok none) : ∀ f ∈ findings, f.entity ≠ text k := by
  rintro f hf hentity
  obtain ⟨k', -, hk'⟩ := (mem_of_gather h).1 hf
  obtain rfl : k' = k := htext ((hcheck k' f hk').2.symm.trans hentity)
  simp [hk] at hk'

/-- The malformed records of both sides, and what a check finds at each key. -/
def keyedFindings {κ : Type} (name : κ → String) (problems : Source → List (κ × RecordProblem))
    (matched : List Finding) : List Finding :=
  (problems .ledger).map (fun p => Finding.dataIntegrity .ledger (name p.1) p.2) ++
    (problems .exchange).map (fun p => Finding.dataIntegrity .exchange (name p.1) p.2) ++ matched

section Keyed

variable {κ : Type} {name : κ → String} {problems : Source → List (κ × RecordProblem)}
  {matched : List Finding}

theorem mem_keyedFindings {f : Finding} :
    f ∈ keyedFindings name problems matched ↔
      (∃ source, ∃ p ∈ problems source, Finding.dataIntegrity source (name p.1) p.2 = f) ∨
        f ∈ matched := by
  simp only [keyedFindings, List.mem_append, List.mem_map]
  refine or_congr_left ⟨?_, ?_⟩
  · rintro (h | h)
    · exact ⟨.ledger, h⟩
    · exact ⟨.exchange, h⟩
  · rintro ⟨_ | _, h⟩
    · exact .inl h
    · exact .inr h

theorem countP_compared_keyedFindings (hmatched : ∀ f ∈ matched, f.type.compared = some c)
    (key : String) :
    (keyedFindings name problems matched).countP
        (fun f => f.type.compared = some c ∧ f.entity = key) =
      (matched.map Finding.entity).count key := by
  have hnone : ∀ source, ((problems source).map fun p =>
      Finding.dataIntegrity source (name p.1) p.2).countP
        (fun f => f.type.compared = some c ∧ f.entity = key) = 0 := by
    intro source
    simp [List.countP_eq_zero, Finding.type, DiscrepancyType.compared]
  have hall : matched.countP (fun f => f.type.compared = some c ∧ f.entity = key) =
      (matched.map Finding.entity).count key := by
    rw [List.count, List.countP_map]
    refine List.countP_congr fun f hf => ?_
    simp [hmatched f hf]
  rw [keyedFindings, List.countP_append, List.countP_append, hnone, hnone, hall, Nat.zero_add]

theorem countP_integrity_keyedFindings (hname : Function.Injective name)
    (hproblems : ∀ source, ∀ p ∈ problems source, p.2.category = c)
    (hmatched : ∀ f ∈ matched, f.type.compared = some c) (source : Source) (k : κ)
    [DecidableEq κ] :
    (keyedFindings name problems matched).countP
        (fun f => f.type = .dataIntegrity ∧ f.entity = integrityEntity source c (name k)) =
      (problems source).countP (·.1 = k) := by
  have hside : ∀ source', ((problems source').map fun p =>
      Finding.dataIntegrity source' (name p.1) p.2).countP
        (fun f => f.type = .dataIntegrity ∧ f.entity = integrityEntity source c (name k)) =
      if source' = source then (problems source).countP (·.1 = k) else 0 := by
    intro source'
    have hentity : ∀ p ∈ problems source',
        (Finding.dataIntegrity source' (name p.1) p.2).entity = integrityEntity source c (name k) ↔
          source' = source ∧ p.1 = k := by
      intro p hp
      constructor
      · intro h
        obtain ⟨hsource, -, hkey⟩ := integrityEntity_inj h
        exact ⟨hsource, hname hkey⟩
      · rintro ⟨rfl, rfl⟩
        rw [← hproblems source' p hp]
        rfl
    rw [List.countP_map]
    split
    · rename_i hsource
      subst hsource
      refine List.countP_congr fun p hp => ?_
      simp [Finding.type, hentity p hp]
    · rename_i hsource
      rw [List.countP_eq_zero]
      intro p hp
      simp [Finding.type, hentity p hp, hsource]
  have hnone : matched.countP
      (fun f => f.type = .dataIntegrity ∧ f.entity = integrityEntity source c (name k)) = 0 := by
    rw [List.countP_eq_zero]
    intro f hf
    rw [decide_eq_true_iff]
    rintro ⟨htype, -⟩
    have hcompared := hmatched f hf
    rw [htype] at hcompared
    cases hcompared
  rw [keyedFindings, List.countP_append, List.countP_append, hside, hside, hnone]
  cases source <;> simp

end Keyed

theorem type_of_mem_gather {κ : Type} {text : κ → String} {check : κ → Checked (Option Finding)}
    (hcheck : FindsByKey c text check) {keys : List κ} (h : gather check keys = .ok findings) :
    ∀ f ∈ findings, f.type.compared = some c := by
  intro f hf
  obtain ⟨k, -, hk⟩ := (mem_of_gather h).1 hf
  exact (hcheck k f hk).1

/-- `Keyed c name check problems findings`: the findings are those of a category that was
compared, key by key. -/
structure Keyed {κ : Type} (c : Category) (name : κ → String)
    (check : κ → Checked (Option Finding)) (problems : Source → List (κ × RecordProblem))
    (findings : List Finding) : Prop where
  name_injective : Function.Injective name
  category : ∀ source, ∀ p ∈ problems source, p.2.category = c
  findsByKey : FindsByKey c name check
  gathered : ∃ keys matched, keys.Nodup ∧ gather check keys = .ok matched ∧
    findings = keyedFindings name problems matched

namespace Keyed

variable {κ : Type} {name : κ → String} {check : κ → Checked (Option Finding)}
  {problems : Source → List (κ × RecordProblem)}

theorem category_of_mem (h : Keyed c name check problems findings) :
    ∀ f ∈ findings, f.category = some c := by
  obtain ⟨keys, matched, -, hmatched, rfl⟩ := h.gathered
  intro f hf
  rcases mem_keyedFindings.1 hf with ⟨source, p, hp, rfl⟩ | hf
  · exact congrArg some (h.category source p hp)
  · exact Finding.category_of_compared (type_of_mem_gather h.findsByKey hmatched f hf)

theorem countP_compared_le (h : Keyed c name check problems findings) (key : String) :
    findings.countP (fun f => f.type.compared = some c ∧ f.entity = key) ≤ 1 := by
  obtain ⟨keys, matched, hkeys, hmatched, rfl⟩ := h.gathered
  rw [countP_compared_keyedFindings (type_of_mem_gather h.findsByKey hmatched)]
  exact List.nodup_iff_count_le_one.1
    (nodup_entity_gather h.findsByKey h.name_injective hkeys hmatched) key

theorem countP_compared_eq_zero (h : Keyed c name check problems findings) {k : κ}
    (hk : check k = .ok none) :
    findings.countP (fun f => f.type.compared = some c ∧ f.entity = name k) = 0 := by
  obtain ⟨keys, matched, -, hmatched, rfl⟩ := h.gathered
  rw [countP_compared_keyedFindings (type_of_mem_gather h.findsByKey hmatched),
    List.count_eq_zero, List.mem_map]
  rintro ⟨f, hf, hentity⟩
  exact entity_ne_of_check_eq_none h.findsByKey h.name_injective hmatched hk f hf hentity

theorem countP_integrity [DecidableEq κ] (h : Keyed c name check problems findings)
    (source : Source) (k : κ) :
    findings.countP
        (fun f => f.type = .dataIntegrity ∧ f.entity = integrityEntity source c (name k)) =
      (problems source).countP (·.1 = k) := by
  obtain ⟨keys, matched, -, hmatched, rfl⟩ := h.gathered
  exact countP_integrity_keyedFindings h.name_injective h.category
    (type_of_mem_gather h.findsByKey hmatched) source k

end Keyed

/-! ## 4. The categories -/

/-- A problem is noted under the asset whose balance has it. -/
theorem asset_of_balanceCheck {e : AssetId × Balance} {p : AssetId × RecordProblem}
    (h : (do return (← balanceProblem t e.2).map (e.1, ·)) = Except.ok (some p)) : p.1 = e.1 := by
  simp only [bind_eq_ok_iff, pure_eq_ok_iff, Option.map_eq_some_iff] at h
  obtain ⟨o, -, problem, -, rfl⟩ := h
  rfl

theorem nodup_balanceProblems {balances : SortedMap AssetId Balance}
    {problems : List (AssetId × RecordProblem)} (h : balanceProblems t balances = .ok problems) :
    (problems.map (·.1)).Nodup := by
  have hsublist : (problems.map (·.1)).Sublist balances.keys :=
    sublist_map_gather (fun _ _ => asset_of_balanceCheck) h
  exact hsublist.nodup (SortedMap.nodup_keys balances)

/-- The balances of one side that are wrong by themselves, each once. -/
theorem countP_balanceProblems {balances : SortedMap AssetId Balance}
    {problems : List (AssetId × RecordProblem)} (h : balanceProblems t balances = .ok problems)
    (a : AssetId) :
    problems.countP (·.1 = a) = (balances.get? a).toList.countP (¬ Balance.Credible t ·) := by
  have hmem : a ∈ problems.map (·.1) ↔ ∃ b, balances.get? a = some b ∧ ¬ b.Credible t := by
    constructor
    · intro ha
      obtain ⟨p, hp, rfl⟩ := List.mem_map.1 ha
      obtain ⟨⟨a, b⟩, he, hcheck⟩ := (mem_of_gather h).1 hp
      simp only [bind_eq_ok_iff, pure_eq_ok_iff, Option.map_eq_some_iff] at hcheck
      obtain ⟨o, ho, problem, rfl, rfl⟩ := hcheck
      refine ⟨b, SortedMap.mem_entries_iff.1 he, fun hcredible => ?_⟩
      rw [balanceProblem_eq_none_iff.2 hcredible] at ho
      cases ho
    · rintro ⟨b, hb, hcredible⟩
      -- the check of this balance came out, since all of them did
      obtain ⟨o, ho⟩ := exists_gather_iff.1 ⟨problems, h⟩ (a, b) (SortedMap.mem_entries_iff.2 hb)
      simp only [bind_eq_ok_iff, pure_eq_ok_iff] at ho
      obtain ⟨o', ho', -⟩ := ho
      cases o' with
      | none => exact absurd (balanceProblem_eq_none_iff.1 ho') hcredible
      | some problem =>
        refine List.mem_map.2 ⟨(a, problem), (mem_of_gather h).2
          ⟨(a, b), SortedMap.mem_entries_iff.2 hb, ?_⟩, rfl⟩
        simp [ho']
  have hcount : problems.countP (·.1 = a) = (problems.map (·.1)).count a := by
    rw [List.count, List.countP_map]
    rfl
  rw [hcount, (nodup_balanceProblems h).count]
  cases hb : balances.get? a with
  | none => simp [hmem, hb]
  | some b => by_cases hcredible : b.Credible t <;> simp [hmem, hb, hcredible]

theorem category_of_mem_balanceProblems {balances : SortedMap AssetId Balance}
    {problems : List (AssetId × RecordProblem)} (h : balanceProblems t balances = .ok problems) :
    ∀ p ∈ problems, p.2.category = .balances := by
  intro p hp
  obtain ⟨⟨a, b⟩, -, hcheck⟩ := (mem_of_gather h).1 hp
  simp only [bind_eq_ok_iff, pure_eq_ok_iff, Option.map_eq_some_iff] at hcheck
  obtain ⟨o, ho, problem, rfl, rfl⟩ := hcheck
  unfold balanceProblem at ho
  split at ho
  · cases ho
    rfl
  · simp only [bind_eq_ok_iff, pure_eq_ok_iff] at ho
    obtain ⟨parts, -, w, -, hw⟩ := ho
    split at hw <;> cases hw
    rfl

theorem category_orderProblem {o : Order} {p : RecordProblem} (h : orderProblem o = some p) :
    p.category = .orders := by
  unfold orderProblem at h
  split at h
  · cases h
    rfl
  · split at h <;> cases h
    rfl

theorem category_positionProblem {o : Position} {p : RecordProblem}
    (h : positionProblem o = some p) : p.category = .positions := by
  unfold positionProblem at h
  split at h
  · cases h
    rfl
  · split at h <;> cases h
    rfl

/-- Indexing notes problems of its own category. -/
theorem category_of_mem_problems {κ α : Type} [Ord κ] [Std.TransOrd κ] [Std.LawfulEqOrd κ]
    {key : α → κ} {problem : α → Option RecordProblem} {repeated : RecordProblem} {l : List α}
    (hproblem : ∀ a p, problem a = some p → p.category = c) (hrepeated : repeated.category = c) :
    ∀ e ∈ (Index.ofList key problem repeated l).problems, e.2.category = c := by
  intro e he
  rcases Index.mem_problems_ofList he with h | ⟨a, -, h⟩
  · rw [h, hrepeated]
  · exact hproblem a e.2 h

section Credible

variable {κ α : Type} [Ord κ] [Std.TransOrd κ] [Std.LawfulEqOrd κ] [DecidableEq κ] {key : α → κ}
  {problem : α → Option RecordProblem} {repeated : RecordProblem} {Credible : α → Prop}
  {l : List α} {k : κ}

/-- A key stands for no record if one under it cannot be believed, or there are several. -/
theorem get?_ofList_of_not_credible (hproblem : ∀ {a}, problem a = none ↔ Credible a)
    (h : (∃ a ∈ l.filter (key · = k), ¬ Credible a) ∨ 1 < (l.filter (key · = k)).length) :
    (Index.ofList key problem repeated l).records.get? k = some none := by
  refine Index.get?_ofList_eq_suspect (h.imp ?_ id)
  rintro ⟨a, ha, hcredible⟩
  exact ⟨a, ha, mt hproblem.1 hcredible⟩

theorem countP_problems_of_credible [DecidablePred Credible]
    (hproblem : ∀ {a}, problem a = none ↔ Credible a) :
    (Index.ofList key problem repeated l).problems.countP (·.1 = k) =
      (l.filter (key · = k)).countP (¬ Credible ·) +
        (l.filter (key · = k)).tail.countP (Credible ·) := by
  rw [Index.countP_problems_ofList]
  simp only [ne_eq, hproblem]

end Credible

theorem compareOrder_of_suspect {e o : Option (Option Order)} (h : e = some none ∨ o = some none) :
    compareOrder t e o = .ok none := by
  rcases h with rfl | rfl
  · rfl
  · rcases e with _ | _ | e <;> rfl

theorem comparePosition_of_suspect {symbol : Symbol} {e o : Option (Option Position)}
    (h : e = some none ∨ o = some none) : comparePosition t symbol e o = .ok none := by
  rcases h with rfl | rfl
  · rfl
  · rcases e with _ | _ | e <;> rfl

theorem keyed_compareBalances {expected actual : SortedMap AssetId Balance}
    (h : compareBalances t expected actual = .ok findings) :
    ∃ ledger exchange, balanceProblems t expected = .ok ledger ∧
      balanceProblems t actual = .ok exchange ∧
      Keyed .balances Identifier.text
        (fun a => if a ∈ (ledger ++ exchange).map (·.1) then pure none
          else compareBalance t a (expected.get? a) (actual.get? a))
        (Source.pick ledger exchange) findings := by
  simp only [compareBalances, bind_eq_ok_iff, pure_eq_ok_iff] at h
  obtain ⟨ledger, hledger, exchange, hexchange, matched, hmatched, rfl⟩ := h
  refine ⟨ledger, exchange, hledger, hexchange, Identifier.text_injective, fun source => ?_,
    findsByKey_compareBalance _ _ _, _, matched, nodup_unionKeys _ _, hmatched, rfl⟩
  cases source with
  | ledger => exact category_of_mem_balanceProblems hledger
  | exchange => exact category_of_mem_balanceProblems hexchange

theorem keyed_compareOrders {expected actual : List Order}
    (h : compareOrders t expected actual = .ok findings) :
    Keyed .orders id
      (fun id => compareOrder t ((indexOrders expected).records.get? id)
        ((indexOrders actual).records.get? id))
      (fun source => (indexOrders (source.pick expected actual)).problems) findings := by
  simp only [compareOrders, bind_eq_ok_iff, pure_eq_ok_iff] at h
  obtain ⟨matched, hmatched, rfl⟩ := h
  exact ⟨Function.injective_id,
    fun source => category_of_mem_problems (fun _ _ => category_orderProblem) rfl,
    findsByKey_compareOrder _ _, _, matched, nodup_unionKeys _ _, hmatched, rfl⟩

theorem keyed_comparePositions {expected actual : List Position}
    (h : comparePositions t expected actual = .ok findings) :
    Keyed .positions Identifier.text
      (fun symbol => comparePosition t symbol ((indexPositions expected).records.get? symbol)
        ((indexPositions actual).records.get? symbol))
      (fun source => (indexPositions (source.pick expected actual)).problems) findings := by
  simp only [comparePositions, bind_eq_ok_iff, pure_eq_ok_iff] at h
  obtain ⟨matched, hmatched, rfl⟩ := h
  exact ⟨Identifier.text_injective,
    fun source => category_of_mem_problems (fun _ _ => category_positionProblem) rfl,
    findsByKey_comparePosition _ _, _, matched, nodup_unionKeys _ _, hmatched, rfl⟩

/-! ## 5. The whole comparison -/

theorem isUsable_of_isDegraded_eq_false (h : s.isDegraded c = false) : s.isUsable = true :=
  List.any_eq_true.2 ⟨c, Category.mem_all c, by simp [h]⟩

/-- A category is either skipped or compared key by key. -/
theorem compareCategory_eq_skipped_or_keyed (h : compareCategory t x s c = .ok findings) :
    findings = [.detectionSkipped c] ∨
      ∃ (κ : Type) (name : κ → String) (check : κ → Checked (Option Finding))
        (problems : Source → List (κ × RecordProblem)), Keyed c name check problems findings := by
  unfold compareCategory at h
  split at h
  · cases h
    exact .inl rfl
  · right
    cases c with
    | balances =>
      obtain ⟨_, _, -, -, hkeyed⟩ := keyed_compareBalances h
      exact ⟨_, _, _, _, hkeyed⟩
    | orders => exact ⟨_, _, _, _, keyed_compareOrders h⟩
    | positions => exact ⟨_, _, _, _, keyed_comparePositions h⟩

/-- What is found in a category is about that category. -/
theorem category_of_mem_compareCategory (h : compareCategory t x s c = .ok findings) :
    ∀ f ∈ findings, f.category = some c := by
  rcases compareCategory_eq_skipped_or_keyed h with rfl | ⟨_, _, _, _, hkeyed⟩
  · simp [Finding.category]
  · exact hkeyed.category_of_mem

/-- Only of a usable snapshot is anything found about a category. -/
theorem isUsable_of_category {f : Finding} (h : detect t s x = .ok findings) (hf : f ∈ findings)
    (hc : f.category = some c) : s.isUsable = true := by
  rcases detect_cases h with ⟨-, rfl⟩ | ⟨husable, -⟩
  · rw [Finding.category_eq_none_iff.2 (type_of_mem_connectivity hf)] at hc
    cases hc
  · exact husable

/-- The findings about a category are those of its own comparison. -/
theorem filter_category_detect (h : detect t s x = .ok findings) (husable : s.isUsable = true)
    (c : Category) : compareCategory t x s c = .ok (findings.filter (·.category = some c)) := by
  rcases detect_cases h with ⟨hunusable, -⟩ | ⟨-, b, o, p, hb, ho, hp, rfl⟩
  · simp [husable] at hunusable
  have hconnectivity : (connectivity s).toList.filter (·.category = some c) = [] := by
    simp only [connectivity]
    cases s.collectionError <;> rfl
  have hown : ∀ {c' l}, compareCategory t x s c' = .ok l →
      l.filter (·.category = some c) = if c' = c then l else [] := by
    intro c' l hl
    have hcategory := category_of_mem_compareCategory hl
    split
    · rename_i hc
      subst hc
      exact List.filter_eq_self.2 fun f hf => decide_eq_true (hcategory f hf)
    · rename_i hc
      refine List.filter_eq_nil_iff.2 fun f hf => ?_
      simp [hcategory f hf, hc]
  rw [List.filter_append, List.filter_append, List.filter_append, hconnectivity, hown hb, hown ho,
    hown hp]
  cases c <;> simpa

end Detection

namespace ExchangeSnapshot

open Discrepancy (comparedCount integrityCount)

variable {t : Tolerances} {s : ExchangeSnapshot} {x : ExpectedState} {c : Category}
  {findings : List Finding}

theorem comparedCount_discrepancies (key : String) :
    comparedCount c key (s.discrepancies findings) =
      (findings.filter (·.category = some c)).countP
        fun f => f.type.compared = some c ∧ f.entity = key := by
  rw [comparedCount, discrepancies, (Discrepancy.perm_sort _).countP_eq, List.countP_map,
    List.countP_filter]
  refine List.countP_congr fun f _ => ?_
  simp only [Function.comp_apply, Finding.type_discrepancy, Finding.entity_discrepancy,
    decide_eq_true_iff, Bool.and_eq_true]
  exact ⟨fun h => ⟨h, Finding.category_of_compared h.1⟩, fun h => h.1⟩

theorem integrityCount_discrepancies (source : Source) (key : String) :
    integrityCount source c key (s.discrepancies findings) =
      (findings.filter (·.category = some c)).countP
        fun f => f.type = .dataIntegrity ∧ f.entity = integrityEntity source c key := by
  rw [integrityCount, discrepancies, (Discrepancy.perm_sort _).countP_eq, List.countP_map,
    List.countP_filter]
  refine List.countP_congr fun f _ => ?_
  simp only [Function.comp_apply, Finding.type_discrepancy, Finding.entity_discrepancy,
    decide_eq_true_iff, Bool.and_eq_true]
  exact ⟨fun h => ⟨h, Finding.category_of_integrity h.1 h.2⟩, fun h => h.1⟩

end ExchangeSnapshot

namespace Detection

open Discrepancy (comparedCount integrityCount)

variable {t : Tolerances} {s : ExchangeSnapshot} {x : ExpectedState} {c : Category}
  {findings : List Finding}

/-- A category that was compared key by key is judged, if its checks heed what is left out. -/
theorem Keyed.judged {κ α : Type} [DecidableEq κ] {name : κ → String}
    {check : κ → Checked (Option Finding)} {problems : Source → List (κ × RecordProblem)}
    {Credible : α → Prop} [DecidablePred Credible] {records : Source → κ → List α}
    (h : Keyed c name check problems (findings.filter (·.category = some c)))
    (hexcluded : ∀ source k, (∃ a ∈ records source k, ¬ Credible a) ∨
      1 < (records source k).length → check k = .ok none)
    (hreported : ∀ source k, (problems source).countP (·.1 = k) =
      (records source k).countP (¬ Credible ·) + (records source k).tail.countP (Credible ·)) :
    Judged c name Credible records (s.discrepancies findings) where
  once key := by
    rw [ExchangeSnapshot.comparedCount_discrepancies]
    exact h.countP_compared_le key
  excluded source k hk := by
    rw [ExchangeSnapshot.comparedCount_discrepancies]
    exact h.countP_compared_eq_zero (hexcluded source k hk)
  reported source k := by
    rw [ExchangeSnapshot.integrityCount_discrepancies, ← hreported]
    exact h.countP_integrity source k

theorem judged_balances
    (h : compareBalances t x.balances s.balances =
      .ok (findings.filter (·.category = some .balances))) :
    Judged .balances Identifier.text (Balance.Credible t) (balancesOf x s)
      (s.discrepancies findings) := by
  obtain ⟨ledger, exchange, hledger, hexchange, hkeyed⟩ := keyed_compareBalances h
  have hcount : ∀ source a, (source.pick ledger exchange).countP (·.1 = a) =
      (balancesOf x s source a).countP (¬ Balance.Credible t ·) := by
    intro source a
    cases source with
    | ledger => exact countP_balanceProblems hledger a
    | exchange => exact countP_balanceProblems hexchange a
  have hlength : ∀ source a, (balancesOf x s source a).length ≤ 1 := fun source a =>
    Option.length_toList_le
  refine hkeyed.judged (fun source a hsuspect => ?_) fun source a => ?_
  · obtain hmalformed : ∃ b ∈ balancesOf x s source a, ¬ b.Credible t :=
      hsuspect.resolve_right (Nat.not_lt.2 (hlength source a))
    rw [if_pos]
    · rfl
    have hpos : 0 < (source.pick ledger exchange).countP (·.1 = a) := by
      rw [hcount, List.countP_pos_iff]
      simpa using hmalformed
    obtain ⟨p, hp, hpa⟩ := List.countP_pos_iff.1 hpos
    refine List.mem_map.2 ⟨p, List.mem_append.2 ?_, by simpa using hpa⟩
    cases source with
    | ledger => exact .inl hp
    | exchange => exact .inr hp
  · have htail : (balancesOf x s source a).tail = [] := by
      rw [← List.length_eq_zero_iff, List.length_tail, Nat.sub_eq_zero_of_le (hlength source a)]
    rw [hcount, htail, List.countP_nil, Nat.add_zero]

theorem judged_orders
    (h : compareOrders t x.orders s.openOrders =
      .ok (findings.filter (·.category = some .orders))) :
    Judged .orders id Order.Credible (ordersOf x s) (s.discrepancies findings) := by
  refine (keyed_compareOrders h).judged (fun source id hsuspect => ?_) fun source id =>
    countP_problems_of_credible orderProblem_eq_none_iff
  have hget : (indexOrders (source.pick x.orders s.openOrders)).records.get? id = some none :=
    get?_ofList_of_not_credible orderProblem_eq_none_iff hsuspect
  cases source with
  | ledger => exact compareOrder_of_suspect (.inl hget)
  | exchange => exact compareOrder_of_suspect (.inr hget)

theorem judged_positions
    (h : comparePositions t x.positions s.positions =
      .ok (findings.filter (·.category = some .positions))) :
    Judged .positions Identifier.text Position.Credible (positionsOf x s)
      (s.discrepancies findings) := by
  refine (keyed_comparePositions h).judged (fun source symbol hsuspect => ?_) fun source symbol =>
    countP_problems_of_credible positionProblem_eq_none_iff
  have hget : (indexPositions (source.pick x.positions s.positions)).records.get? symbol =
      some none := get?_ofList_of_not_credible positionProblem_eq_none_iff hsuspect
  cases source with
  | ledger => exact comparePosition_of_suspect (.inl hget)
  | exchange => exact comparePosition_of_suspect (.inr hget)

/-- Nothing is said of the keys of a category that was skipped. -/
theorem counts_of_isDegraded (h : detect t s x = .ok findings) (hc : s.isDegraded c = true)
    (key : String) :
    comparedCount c key (s.discrepancies findings) = 0 ∧
      ∀ source, integrityCount source c key (s.discrepancies findings) = 0 := by
  have hskipped : ∀ f ∈ findings.filter (·.category = some c), f.type = .connectivity ∨
      f.type = .detectionSkipped := by
    intro f hf
    rcases detect_cases h with ⟨-, rfl⟩ | ⟨husable, -⟩
    · exact .inl (type_of_mem_connectivity (List.mem_of_mem_filter hf))
    · have hcategory := filter_category_detect h husable c
      simp only [compareCategory, hc, if_true, pure_eq_ok_iff] at hcategory
      rw [← hcategory, List.mem_singleton] at hf
      exact .inr (hf ▸ rfl)
  simp only [ExchangeSnapshot.comparedCount_discrepancies,
    ExchangeSnapshot.integrityCount_discrepancies, List.countP_eq_zero, decide_eq_true_iff]
  constructor
  · rintro f hf ⟨htype, -⟩
    rcases hskipped f hf with h | h <;> rw [h] at htype <;> cases htype
  · rintro source f hf ⟨htype, -⟩
    rcases hskipped f hf with h | h <;> rw [h] at htype <;> cases htype

end Detection

namespace ExchangeSnapshot

open Detection

/-- **Each key is judged once, and malformed records are left out.**  Where a comparison with the
ledger comes out, it has at most one discrepancy about the values under each key of a category
that was collected, and none if a record under the key is malformed or repeated on its side; the
malformed and the repeated records are reported, one by one. -/
theorem judgement_compareWithLedger {t : Tolerances} {s : ExchangeSnapshot}
    {ledger : LedgerSnapshot} {ds : List Discrepancy} (h : s.compareWithLedger t ledger = .ok ds) :
    Judgement t (ledger.expected s.exchange) s ds := by
  obtain ⟨findings, hdetect, rfl⟩ := compareWithLedger_eq_ok_iff.1 h
  have hcategory : ∀ c, s.isDegraded c = false →
      compareCategory t (ledger.expected s.exchange) s c =
        .ok (findings.filter (·.category = some c)) := fun c hc =>
    filter_category_detect hdetect (isUsable_of_isDegraded_eq_false hc) c
  refine ⟨fun hc => ?_, fun hc => ?_, fun hc => ?_, fun c hc => counts_of_isDegraded hdetect hc⟩
  · exact judged_balances (by simpa [compareCategory, hc] using hcategory .balances hc)
  · exact judged_orders (by simpa [compareCategory, hc] using hcategory .orders hc)
  · exact judged_positions (by simpa [compareCategory, hc] using hcategory .positions hc)

/-- An order that the exchange reports three times, first with a negative quantity. -/
theorem judgement_compareWithLedger_repeated_order :
    let o : Order :=
      ⟨"1", .of .exchange "paper", .of .symbol "BTCUSDT", .buy, .one, none, .zero, none, .accepted,
        none, default⟩
    let s : ExchangeSnapshot :=
      { new o.exchange default with openOrders := [{ o with quantity := -.one }, o, o] }
    let ledger : LedgerSnapshot := ⟨default, 1, default, .empty⟩
    let findings : List Finding := [.dataIntegrity .exchange "1" (.negativeOrder (-.one)),
      .dataIntegrity .exchange "1" .repeatedOrder, .dataIntegrity .exchange "1" .repeatedOrder]
    let ds := s.discrepancies findings
    s.compareWithLedger .standard ledger = .ok ds ∧
      Judgement .standard (ledger.expected s.exchange) s ds ∧
      Discrepancy.integrityCount .exchange .orders "1" ds = 3 ∧
      Discrepancy.comparedCount .orders "1" ds = 0 := by
  intro o s ledger findings ds
  have hdetect : detect .standard s (ledger.expected s.exchange) = .ok findings := by decide +kernel
  have h : s.compareWithLedger .standard ledger = .ok ds :=
    compareWithLedger_eq_ok_iff.2 ⟨findings, hdetect, rfl⟩
  have hjudgement := judgement_compareWithLedger h
  have horders := hjudgement.orders rfl
  refine ⟨h, hjudgement, ?_, horders.excluded .exchange "1" (.inr (by decide))⟩
  exact (horders.reported .exchange "1").trans (by decide)

end ExchangeSnapshot

end Reconciliation
