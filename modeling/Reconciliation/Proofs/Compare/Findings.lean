/-
# What a comparison finds, by type and entity

The findings of a comparison fall into kinds that do not mix: the collection that failed, the
categories that were skipped for it, and the records of the categories that were compared.  Of
the last kind, a key has one finding at most, unless the finding is that its records are
malformed.

* `filter_connectivity_detect`, `filter_skipped_detect`: what was lost is found, and found once;
* `valuesByEntity_detect`: type and entity determine the values that are compared;
* `ExchangeSnapshot.forall₂_discrepancies`: so when a snapshot was captured only dates what is
  found in it.
-/
import Reconciliation.Proofs.Compare.Matching
import Reconciliation.Proofs.Compare.ReportOrder

namespace Reconciliation

/-! ## 1. Types -/

/-- The category whose records a discrepancy compares.  It has none if a whole collection or
category is missing, or if a record is malformed. -/
def DiscrepancyType.compared : DiscrepancyType → Option Category
  | .balanceMismatch | .unexpectedAsset | .missingAsset => some .balances
  | .orderMissing | .orderUntracked | .orderStatusMismatch => some .orders
  | .positionMismatch => some .positions
  | .connectivity | .detectionSkipped | .dataIntegrity => none

namespace Detection

variable {t : Tolerances} {s : ExchangeSnapshot} {x : ExpectedState} {c : Category}
  {f g : Finding} {findings : List Finding}

/-! ## 2. Findings by key -/

/-- `FindsByKey c key check`: what the check finds at a key is about records of the category and
has the key's text as its entity. -/
def FindsByKey {κ : Type} (c : Category) (text : κ → String)
    (check : κ → Checked (Option Finding)) : Prop :=
  ∀ k f, check k = .ok (some f) → f.type.compared = some c ∧ f.entity = text k

/-- Two findings of one entity are one finding. -/
theorem FindsByKey.eq_of_mem {κ : Type} {text : κ → String} {check : κ → Checked (Option Finding)}
    (hcheck : FindsByKey c text check) (htext : Function.Injective text) {keys : List κ}
    (h : gather check keys = .ok findings) (hf : f ∈ findings) (hg : g ∈ findings)
    (hentity : f.entity = g.entity) : f = g := by
  obtain ⟨k, -, hk⟩ := (mem_of_gather h).1 hf
  obtain ⟨k', -, hk'⟩ := (mem_of_gather h).1 hg
  have htexts : text k = text k' := by
    rw [← (hcheck k f hk).2, ← (hcheck k' g hk').2, hentity]
  rw [← htext htexts, hk, Except.ok.injEq, Option.some.injEq] at hk'
  exact hk'

theorem findsByKey_compareBalance (expected actual : SortedMap AssetId Balance)
    (malformed : List AssetId) :
    FindsByKey .balances Identifier.text fun a =>
      if a ∈ malformed then pure none
      else compareBalance t a (expected.get? a) (actual.get? a) := by
  intro a f h
  dsimp only at h
  split at h
  · cases h
  cases he : expected.get? a <;> cases hx : actual.get? a <;>
    simp only [he, hx, compareBalance, bind_eq_ok_iff, pure_eq_ok_iff] at h
  · cases h
  · split at h <;> cases h
    exact ⟨rfl, rfl⟩
  · split at h <;> cases h
    exact ⟨rfl, rfl⟩
  · obtain ⟨w, -, h⟩ := h
    split at h
    · cases h
    · simp only [bind_eq_ok_iff, pure_eq_ok_iff, Option.some.injEq] at h
      obtain ⟨delta, -, severity, -, rfl⟩ := h
      exact ⟨rfl, rfl⟩

theorem id_of_get?_indexOrders {l : List Order} {id : OrderId} {o : Order}
    (h : (indexOrders l).records.get? id = some (some o)) : o.id = id := by
  have hfilter := (Index.get?_ofList_eq_valid_iff.1 h).1
  have hmem : o ∈ l.filter (·.id = id) := by rw [hfilter]; exact List.mem_singleton_self o
  simpa using (List.mem_filter.1 hmem).2

theorem findsByKey_compareOrder (expected actual : List Order) :
    FindsByKey .orders id fun id => compareOrder t ((indexOrders expected).records.get? id)
      ((indexOrders actual).records.get? id) := by
  intro id f h
  dsimp only at h
  unfold compareOrder at h
  split at h
  · cases h
  · cases h
  · rename_i e he hx
    split at h <;> cases h
    exact ⟨rfl, id_of_get?_indexOrders he⟩
  · rename_i o he hx
    cases h
    exact ⟨rfl, id_of_get?_indexOrders hx⟩
  · rename_i e o he hx
    split at h
    · cases h
    · simp only [bind_eq_ok_iff, pure_eq_ok_iff, Option.some.injEq] at h
      obtain ⟨severity, -, rfl⟩ := h
      exact ⟨rfl, id_of_get?_indexOrders he⟩
  · cases h

theorem findsByKey_comparePosition (expected actual : List Position) :
    FindsByKey .positions Identifier.text fun s =>
      comparePosition t s ((indexPositions expected).records.get? s)
        ((indexPositions actual).records.get? s) := by
  intro s f h
  dsimp only at h
  unfold comparePosition at h
  split at h
  · cases h
  · cases h
  · simp only [compareExposure, bind_eq_ok_iff] at h
    obtain ⟨e, -, o, -, w, -, h⟩ := h
    split at h
    · cases h
    · simp only [bind_eq_ok_iff, pure_eq_ok_iff, Option.some.injEq] at h
      obtain ⟨delta, -, severity, -, rfl⟩ := h
      exact ⟨rfl, rfl⟩

/-! ## 3. One category -/

/-- `Categorized c findings`: malformed records, and one finding for each entity. -/
structure Categorized (c : Category) (findings : List Finding) : Prop where
  type : ∀ f ∈ findings, f.type = .dataIntegrity ∨ f.type.compared = some c
  unique : ∀ f ∈ findings, ∀ g ∈ findings, f.type.compared = some c → g.type.compared = some c →
    f.entity = g.entity → f = g

/-- The findings of a category are those about the records of each side and those about both. -/
theorem categorized_append {κ κ' : Type} {text : κ → String} (htext : Function.Injective text)
    {check : κ → Checked (Option Finding)} (hcheck : FindsByKey c text check) {keys : List κ}
    {matched : List Finding} (hmatched : gather check keys = .ok matched) (name : κ' → String)
    (ledger exchange : List (κ' × RecordProblem)) :
    Categorized c (ledger.map (fun p => Finding.dataIntegrity .ledger (name p.1) p.2) ++
      exchange.map (fun p => Finding.dataIntegrity .exchange (name p.1) p.2) ++ matched) := by
  have hmem : ∀ f ∈ ledger.map (fun p => Finding.dataIntegrity .ledger (name p.1) p.2) ++
      exchange.map (fun p => Finding.dataIntegrity .exchange (name p.1) p.2) ++ matched,
      f.type = .dataIntegrity ∨ f ∈ matched := by
    intro f hf
    simp only [List.mem_append, List.mem_map] at hf
    rcases hf with (⟨p, -, rfl⟩ | ⟨p, -, rfl⟩) | hf
    · exact .inl rfl
    · exact .inl rfl
    · exact .inr hf
  constructor
  · intro f hf
    refine (hmem f hf).imp id fun hf => ?_
    obtain ⟨k, -, hk⟩ := (mem_of_gather hmatched).1 hf
    exact (hcheck k f hk).1
  · intro f hf g hg hfc hgc hentity
    have hf := (hmem f hf).resolve_left fun h => by rw [h] at hfc; cases hfc
    have hg := (hmem g hg).resolve_left fun h => by rw [h] at hgc; cases hgc
    exact hcheck.eq_of_mem htext hmatched hf hg hentity

theorem Identifier.text_injective {k : IdentifierKind} :
    Function.Injective (Identifier.text (k := k)) := fun _ _ h => Identifier.ext_text h

/-- **A category is either skipped or compared.** -/
theorem compareCategory_cases (h : compareCategory t x s c = .ok findings) :
    (s.isDegraded c = true ∧ findings = [.detectionSkipped c]) ∨
      (s.isDegraded c = false ∧ Categorized c findings) := by
  unfold compareCategory at h
  split at h
  · rename_i hdegraded
    cases h
    exact .inl ⟨hdegraded, rfl⟩
  · rename_i hdegraded
    refine .inr ⟨by simpa using hdegraded, ?_⟩
    cases c with
    | balances =>
      simp only [compareBalances, bind_eq_ok_iff, pure_eq_ok_iff] at h
      obtain ⟨ledger, -, exchange, -, matched, hmatched, rfl⟩ := h
      exact categorized_append Identifier.text_injective
        (findsByKey_compareBalance _ _ _) hmatched Identifier.text ledger exchange
    | orders =>
      simp only [compareOrders, bind_eq_ok_iff, pure_eq_ok_iff] at h
      obtain ⟨matched, hmatched, rfl⟩ := h
      exact categorized_append Function.injective_id (findsByKey_compareOrder _ _) hmatched id _ _
    | positions =>
      simp only [comparePositions, bind_eq_ok_iff, pure_eq_ok_iff] at h
      obtain ⟨matched, hmatched, rfl⟩ := h
      exact categorized_append Identifier.text_injective
        (findsByKey_comparePosition _ _) hmatched Identifier.text _ _

/-! ## 4. Everything -/

theorem detect_cases (h : detect t s x = .ok findings) :
    (s.isUsable = false ∧ findings = (connectivity s).toList) ∨
      (s.isUsable = true ∧ ∃ balances orders positions,
        compareCategory t x s .balances = .ok balances ∧
        compareCategory t x s .orders = .ok orders ∧
        compareCategory t x s .positions = .ok positions ∧
        findings = (connectivity s).toList ++ balances ++ orders ++ positions) := by
  unfold detect at h
  split at h
  · rename_i husable
    simp only [bind_eq_ok_iff, pure_eq_ok_iff] at h
    obtain ⟨balances, hbalances, orders, horders, positions, hpositions, rfl⟩ := h
    exact .inr ⟨husable, balances, orders, positions, hbalances, horders, hpositions, rfl⟩
  · rename_i husable
    cases h
    exact .inl ⟨by simpa using husable, rfl⟩

theorem type_of_mem_connectivity (hf : f ∈ (connectivity s).toList) : f.type = .connectivity := by
  simp only [connectivity, Option.mem_toList, Option.map_eq_some_iff] at hf
  obtain ⟨error, -, rfl⟩ := hf
  rfl

theorem not_connectivity_of_mem_compareCategory (h : compareCategory t x s c = .ok findings)
    (hf : f ∈ findings) : f.type ≠ .connectivity := by
  intro htype
  rcases compareCategory_cases h with ⟨-, rfl⟩ | ⟨-, hfindings⟩
  · rw [List.mem_singleton.1 hf] at htype
    cases htype
  · rcases hfindings.type f hf with hintegrity | hcompared
    · rw [hintegrity] at htype
      cases htype
    · rw [htype] at hcompared
      cases hcompared

/-- A failed collection is found once. -/
theorem filter_connectivity_detect (h : detect t s x = .ok findings) :
    findings.filter (·.type = .connectivity) = (connectivity s).toList := by
  have hself : (connectivity s).toList.filter (·.type = .connectivity) = (connectivity s).toList :=
    List.filter_eq_self.2 fun f hf => decide_eq_true (type_of_mem_connectivity hf)
  rcases detect_cases h with ⟨-, rfl⟩ | ⟨-, b, o, p, hb, ho, hp, rfl⟩
  · exact hself
  · have hnone : ∀ {c l}, compareCategory t x s c = .ok l →
        l.filter (·.type = .connectivity) = [] := fun hl =>
      List.filter_eq_nil_iff.2 fun f hf => by
        simpa using not_connectivity_of_mem_compareCategory hl hf
    simp only [List.filter_append, hself, hnone hb, hnone ho, hnone hp, List.append_nil]

theorem filter_skipped_compareCategory (h : compareCategory t x s c = .ok findings) :
    findings.filter (·.type = .detectionSkipped) =
      if s.isDegraded c then [.detectionSkipped c] else [] := by
  rcases compareCategory_cases h with ⟨hdegraded, rfl⟩ | ⟨hdegraded, hfindings⟩
  · rw [hdegraded]
    rfl
  · rw [hdegraded, if_neg (by simp), List.filter_eq_nil_iff]
    intro f hf
    rw [decide_eq_true_iff]
    intro htype
    rcases hfindings.type f hf with hintegrity | hcompared
    · rw [hintegrity] at htype
      cases htype
    · rw [htype] at hcompared
      cases hcompared

/-- Of a usable snapshot, every category that was lost is found once; of an unusable one, none. -/
theorem filter_skipped_detect (h : detect t s x = .ok findings) :
    findings.filter (·.type = .detectionSkipped) =
      if s.isUsable then s.degraded.members.map .detectionSkipped else [] := by
  have hconnectivity : (connectivity s).toList.filter (·.type = .detectionSkipped) = [] :=
    List.filter_eq_nil_iff.2 fun f hf => by rw [type_of_mem_connectivity hf]; decide
  rcases detect_cases h with ⟨husable, rfl⟩ | ⟨husable, b, o, p, hb, ho, hp, rfl⟩
  · rw [husable, hconnectivity]
    rfl
  · have hmembers : s.degraded.members.map Finding.detectionSkipped =
        (if s.isDegraded .balances then [.detectionSkipped .balances] else []) ++
        (if s.isDegraded .orders then [.detectionSkipped .orders] else []) ++
        (if s.isDegraded .positions then [.detectionSkipped .positions] else []) := by
      simp only [PerCategory.members, Category.all, ExchangeSnapshot.isDegraded, List.filter_cons,
        List.filter_nil]
      by_cases hb : s.degraded.get .balances = true <;>
        by_cases ho : s.degraded.get .orders = true <;>
          by_cases hp : s.degraded.get .positions = true <;> simp [hb, ho, hp]
    simp only [List.filter_append, hconnectivity, filter_skipped_compareCategory hb,
      filter_skipped_compareCategory ho, filter_skipped_compareCategory hp, husable, if_true,
      hmembers, List.nil_append]

/-- In the list, type and entity determine the values. -/
def ValuesByEntity (findings : List Finding) : Prop :=
  ∀ f ∈ findings, ∀ g ∈ findings, f.type = g.type → f.entity = g.entity →
    f.expected = g.expected ∧ f.actual = g.actual

theorem eq_of_mem_connectivity (hf : f ∈ (connectivity s).toList)
    (hg : g ∈ (connectivity s).toList) : f = g := by
  rw [Option.mem_toList] at hf hg
  exact Option.some.inj (hf.symm.trans hg)

theorem valuesByEntity_connectivity : ValuesByEntity (connectivity s).toList := by
  intro f hf g hg _ _
  rw [eq_of_mem_connectivity hf hg]
  exact ⟨rfl, rfl⟩

/-- What is not compared by value has none, a failed collection apart. -/
theorem values_eq_none (hcompared : f.type.compared = none) (htype : f.type ≠ .connectivity) :
    f.expected = none ∧ f.actual = none := by
  cases f with
  | connectivity => exact absurd rfl htype
  | detectionSkipped => exact ⟨rfl, rfl⟩
  | dataIntegrity => exact ⟨rfl, rfl⟩
  | _ => cases hcompared

/-- **Type and entity determine the values that are compared.** -/
theorem valuesByEntity_detect (h : detect t s x = .ok findings) : ValuesByEntity findings := by
  rcases detect_cases h with ⟨-, rfl⟩ | ⟨-, b, o, p, hb, ho, hp, rfl⟩
  · exact valuesByEntity_connectivity
  -- a finding by value comes from the list of its category
  have hsource : ∀ f ∈ (connectivity s).toList ++ b ++ o ++ p, ∀ c, f.type.compared = some c →
      ∃ l, compareCategory t x s c = .ok l ∧ f ∈ l := by
    intro f hf c hc
    have hskip : ∀ {c' l}, compareCategory t x s c' = .ok l → f ∈ l →
        ∃ l, compareCategory t x s c = .ok l ∧ f ∈ l := by
      intro c' l hl hf
      rcases compareCategory_cases hl with ⟨-, rfl⟩ | ⟨-, hfindings⟩
      · rw [List.mem_singleton.1 hf] at hc
        cases hc
      · rcases hfindings.type f hf with hintegrity | hc'
        · rw [hintegrity] at hc
          cases hc
        · obtain rfl : c = c' := Option.some.inj (hc.symm.trans hc')
          exact ⟨l, hl, hf⟩
    simp only [List.mem_append] at hf
    rcases hf with ((hf | hf) | hf) | hf
    · rw [type_of_mem_connectivity hf] at hc
      cases hc
    · exact hskip hb hf
    · exact hskip ho hf
    · exact hskip hp hf
  intro f hf g hg htype hentity
  cases hc : f.type.compared with
  | some c =>
    obtain ⟨l, hl, hfl⟩ := hsource f hf c hc
    obtain ⟨l', hl', hgl⟩ := hsource g hg c (htype ▸ hc)
    obtain rfl : l = l' := Except.ok.inj (hl.symm.trans hl')
    rcases compareCategory_cases hl with ⟨-, rfl⟩ | ⟨-, hfindings⟩
    · rw [List.mem_singleton.1 hfl] at hc
      cases hc
    · rw [hfindings.unique f hfl g hgl hc (htype ▸ hc) hentity]
      exact ⟨rfl, rfl⟩
  | none =>
    by_cases hconnectivity : f.type = .connectivity
    · have hmem : ∀ f ∈ (connectivity s).toList ++ b ++ o ++ p, f.type = .connectivity →
          f ∈ (connectivity s).toList := by
        intro f hf hc
        rw [← filter_connectivity_detect h]
        exact List.mem_filter.2 ⟨hf, decide_eq_true hc⟩
      rw [eq_of_mem_connectivity (hmem f hf hconnectivity) (hmem g hg (htype ▸ hconnectivity))]
      exact ⟨rfl, rfl⟩
    · obtain ⟨hfe, hfa⟩ := values_eq_none hc hconnectivity
      obtain ⟨hge, hga⟩ := values_eq_none (f := g) (htype ▸ hc) (htype ▸ hconnectivity)
      rw [hfe, hfa, hge, hga]
      exact ⟨rfl, rfl⟩

end Detection

/-! ## 5. Discrepancies -/

namespace Finding

variable (e : ExchangeId) (time : Instant) (f : Finding)

@[simp] theorem exchange_discrepancy : (f.discrepancy e time).exchange = e :=
  Discrepancy.exchange_new ..

@[simp] theorem type_discrepancy : (f.discrepancy e time).type = f.type :=
  Discrepancy.type_new ..

@[simp] theorem severity_discrepancy : (f.discrepancy e time).severity = f.severity :=
  Discrepancy.severity_new ..

@[simp] theorem entity_discrepancy : (f.discrepancy e time).entity = f.entity :=
  Discrepancy.entity_new ..

theorem redated_discrepancy (time' : Instant) :
    Discrepancy.Redated (f.discrepancy e time) (f.discrepancy e time') := by
  refine ⟨time', ?_⟩
  simp only [discrepancy, Discrepancy.foundAt, Discrepancy.exchange_new, Discrepancy.type_new,
    Discrepancy.severity_new, Discrepancy.entity_new, Discrepancy.expected_new,
    Discrepancy.actual_new, Discrepancy.description_new]

end Finding

namespace ExchangeSnapshot

variable {t : Tolerances} {s : ExchangeSnapshot} {ledger : LedgerSnapshot}
  {findings : List Finding} {ds : List Discrepancy}

theorem mem_discrepancies {d : Discrepancy} :
    d ∈ s.discrepancies findings ↔ ∃ f ∈ findings, f.discrepancy s.exchange s.capturedAt = d := by
  rw [discrepancies, Discrepancy.mem_sort, List.mem_map]

theorem exchange_of_mem_discrepancies {d : Discrepancy} (hd : d ∈ s.discrepancies findings) :
    d.exchange = s.exchange := by
  obtain ⟨f, -, rfl⟩ := mem_discrepancies.1 hd
  exact f.exchange_discrepancy s.exchange s.capturedAt

/-- The discrepancies of a type are the findings of that type. -/
theorem filter_type_discrepancies (type : DiscrepancyType) :
    ((s.discrepancies findings).filter (·.type = type)).Perm
      ((findings.filter (·.type = type)).map (Finding.discrepancy s.exchange s.capturedAt)) := by
  have hmap : (findings.map (Finding.discrepancy s.exchange s.capturedAt)).filter (·.type = type) =
      (findings.filter (·.type = type)).map (Finding.discrepancy s.exchange s.capturedAt) := by
    rw [List.filter_map]
    simp only [Function.comp_def, Finding.type_discrepancy]
  rw [← hmap]
  exact (Discrepancy.perm_sort _).filter _

theorem idByEntity_map (e : ExchangeId) (time : Instant)
    (h : Detection.ValuesByEntity findings) :
    Discrepancy.IdByEntity (findings.map (Finding.discrepancy e time)) := by
  intro a ha b hb _ htype hentity
  obtain ⟨f, hf, rfl⟩ := List.mem_map.1 ha
  obtain ⟨g, hg, rfl⟩ := List.mem_map.1 hb
  rw [Finding.type_discrepancy, Finding.type_discrepancy] at htype
  rw [Finding.entity_discrepancy, Finding.entity_discrepancy] at hentity
  obtain ⟨hexpected, hactual⟩ := h f hf g hg htype hentity
  rw [Finding.discrepancy, Finding.discrepancy, Discrepancy.id_new, Discrepancy.id_new, htype,
    hentity, hexpected, hactual]

theorem idByEntity_discrepancies (h : Detection.ValuesByEntity findings) :
    Discrepancy.IdByEntity (s.discrepancies findings) := by
  intro a ha b hb
  rw [discrepancies, Discrepancy.mem_sort] at ha hb
  exact idByEntity_map _ _ h a ha b hb

/-- The snapshot, captured at another time. -/
def capturedOn (s : ExchangeSnapshot) (time : Instant) : ExchangeSnapshot :=
  { s with capturedAt := time }

/-- **When a snapshot was captured only dates what is found in it.** -/
theorem forall₂_discrepancies (h : Detection.ValuesByEntity findings) (time : Instant) :
    List.Forall₂ Discrepancy.Redated (s.discrepancies findings)
      ((s.capturedOn time).discrepancies findings) := by
  refine Discrepancy.forall₂_sort (idByEntity_map _ _ h) (idByEntity_map _ _ h) ?_
  rw [List.forall₂_map_left_iff, List.forall₂_map_right_iff, List.forall₂_same]
  exact fun f _ => f.redated_discrepancy s.exchange s.capturedAt time

/-- What is found before it is dated does not depend on the time. -/
theorem compareWithLedger_capturedOn (time : Instant) :
    (s.capturedOn time).compareWithLedger t ledger = (do
      return (s.capturedOn time).discrepancies
        (← Detection.detect t s (ledger.expected s.exchange))) := rfl

/-- `Recaptured s s'`: the snapshots differ in the time at most. -/
def Recaptured (s s' : ExchangeSnapshot) : Prop := ∃ time, s' = s.capturedOn time

namespace Recaptured

variable {s' s'' : ExchangeSnapshot}

theorem of_capturedOn (time : Instant) : Recaptured s (s.capturedOn time) := ⟨time, rfl⟩

theorem symm (h : Recaptured s s') : Recaptured s' s := by
  obtain ⟨time, rfl⟩ := h
  exact ⟨s.capturedAt, rfl⟩

theorem trans (h : Recaptured s s') (h' : Recaptured s' s'') : Recaptured s s'' := by
  obtain ⟨time, rfl⟩ := h
  obtain ⟨time', rfl⟩ := h'
  exact ⟨time', rfl⟩

theorem exchange_eq (h : Recaptured s s') : s'.exchange = s.exchange := by
  obtain ⟨time, rfl⟩ := h
  rfl

end Recaptured

theorem map_exchange_recaptured {l l' : List ExchangeSnapshot} (h : List.Forall₂ Recaptured l l') :
    l'.map (·.exchange) = l.map (·.exchange) := by
  induction h with
  | nil => rfl
  | cons hx _ ih => rw [List.map_cons, List.map_cons, hx.exchange_eq, ih]

end ExchangeSnapshot

end Reconciliation
