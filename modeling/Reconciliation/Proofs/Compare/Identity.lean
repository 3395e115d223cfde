/-
# What the ids of a comparison tell apart

The id of a discrepancy is derived from its content, in which exchange, type, entity, values and
time are joined by bars.  Free text stands in it, but never where it could be taken for something
else: among the discrepancies of one comparison the content tells type and entity.  So it tells
them all apart but the reports of malformed records, which carry no values; of those, all that
one side has under one key share their content and their id.

* `Discrepancy.entity_of_content_eq`: content tells type and entity;
* `Detection.pairwise_separate_detect`: type and entity tell all findings apart but these;
* `ExchangeSnapshot.content_eq_iff_sameMalformed`: so content does, and the ids with it.
-/
import Reconciliation.Proofs.Compare.Judgement
import Reconciliation.Proofs.Numeric.DecimalText

namespace Reconciliation

/-! ## 1. Content -/

theorem append_cons_inj_right {α : Type} {a : α} {l l' m m' : List α} (hm : a ∉ m) (hm' : a ∉ m')
    (h : l ++ a :: m = l' ++ a :: m') : l = l' ∧ m = m' := by
  have hreverse := congrArg List.reverse h
  rw [List.reverse_append, List.reverse_append, List.reverse_cons, List.reverse_cons,
    List.append_assoc, List.append_assoc, List.singleton_append, List.singleton_append] at hreverse
  obtain ⟨hmm, hll⟩ := append_cons_inj_left (by simpa using hm) (by simpa using hm') hreverse
  exact ⟨List.reverse_inj.1 hll, List.reverse_inj.1 hmm⟩

namespace Decimal

/-- A decimal is written in digits, with a sign and a point at most. -/
theorem bar_notMem_toText (d : Decimal) : '|' ∉ d.toText.toList := by
  have hwhole : '|' ∉ d.wholeChars := fun h =>
    absurd (List.all_eq_true.1 d.all_isDigit_wholeChars _ h) (by decide)
  have hplaces : '|' ∉ d.placeChars := fun h =>
    absurd (List.all_eq_true.1 d.all_isDigit_placeChars _ h) (by decide)
  rw [toText, String.toList_ofList, toChars_eq, bodyChars]
  split <;> split <;> simp [hwhole, hplaces]

end Decimal

theorem Category.name_injective : Function.Injective Category.name := by
  intro c d h
  rw [← Option.some.injEq, ← Category.ofName?_name c, h, Category.ofName?_name]

namespace DiscrepancyType

theorem bar_notMem_name (type : DiscrepancyType) : '|' ∉ type.name.toList := by
  cases type <;> decide

theorem name_injective : Function.Injective name := by
  intro a b h
  cases a <;> cases b <;> first | rfl | exact absurd h (by decide)

end DiscrepancyType

namespace Discrepancy

/-- What the id of a discrepancy stands for. -/
def content (d : Discrepancy) : String :=
  fingerprint d.exchange d.type d.entity d.expected d.actual d.detectedAt

/-- The content's values. -/
def valueChars (value : Option String) : List Char := (value.getD "-").toList

theorem toList_content (d : Discrepancy) :
    d.content.toList = d.exchange.text.toList ++ '|' :: (d.type.name.toList ++ '|' ::
      (d.entity.toList ++ '|' :: (valueChars d.expected ++ '|' ::
        (valueChars d.actual ++ '|' :: d.detectedAt.toOffsetText.toList)))) := by
  simp [content, fingerprint, valueChars]

variable {a b : Discrepancy}

/-- Content tells the types of discrepancies of one exchange. -/
theorem type_of_content_eq (hexchange : a.exchange = b.exchange) (h : a.content = b.content) :
    a.type = b.type := by
  have h := congrArg String.toList h
  rw [toList_content, toList_content, hexchange] at h
  obtain ⟨-, h⟩ := List.cons.inj (List.append_cancel_left h)
  obtain ⟨hname, -⟩ := append_cons_inj_left a.type.bar_notMem_name b.type.bar_notMem_name h
  exact DiscrepancyType.name_injective (String.toList_inj.1 hname)

/-- No value has a bar in it. -/
def NoBar (d : Discrepancy) : Prop := '|' ∉ valueChars d.expected ∧ '|' ∉ valueChars d.actual

/-- Content tells the entities of discrepancies that were found on one exchange at one time. -/
theorem entity_of_content_eq (ha : a.NoBar) (hb : b.NoBar) (hexchange : a.exchange = b.exchange)
    (htime : a.detectedAt = b.detectedAt) (h : a.content = b.content) : a.entity = b.entity := by
  have htype := type_of_content_eq hexchange h
  have h := congrArg String.toList h
  rw [toList_content, toList_content, hexchange, htype, htime] at h
  obtain ⟨-, h⟩ := List.cons.inj (List.append_cancel_left h)
  obtain ⟨-, h⟩ := List.cons.inj (List.append_cancel_left h)
  -- the values are read from the back, since the entity in front of them is free text
  have hback : ∀ d : Discrepancy, d.entity.toList ++ '|' :: (valueChars d.expected ++ '|' ::
      (valueChars d.actual ++ '|' :: b.detectedAt.toOffsetText.toList)) =
      ((d.entity.toList ++ '|' :: valueChars d.expected) ++ '|' :: valueChars d.actual) ++
        '|' :: b.detectedAt.toOffsetText.toList := by
    intro d
    simp
  rw [hback, hback] at h
  obtain ⟨h, -⟩ := append_cons_inj_right ha.2 hb.2 (List.append_cancel_right h)
  obtain ⟨h, -⟩ := append_cons_inj_right ha.1 hb.1 h
  exact String.toList_inj.1 h

/-- Both report malformed records that one side has under one key. -/
def SameMalformed (a b : Discrepancy) : Prop :=
  ∃ source c key, a.type = .dataIntegrity ∧ b.type = .dataIntegrity ∧
    a.entity = integrityEntity source c key ∧ b.entity = integrityEntity source c key

end Discrepancy

/-! ## 2. Type and entity -/

namespace Detection

variable {t : Tolerances} {s : ExchangeSnapshot} {x : ExpectedState} {c : Category}
  {f g : Finding} {findings : List Finding}

/-- Type and entity tell the findings apart, or both report malformed records. -/
def Separate (f g : Finding) : Prop :=
  f.type = g.type → f.type ≠ .connectivity ∧ (f.entity = g.entity → f.type = .dataIntegrity)

/-- Type and entity tell the category. -/
theorem category_eq_of_entity_eq (htype : f.type = g.type) (hentity : f.entity = g.entity) :
    f.category = g.category := by
  cases hcompared : f.type.compared with
  | some c =>
    rw [Finding.category_of_compared hcompared, Finding.category_of_compared (htype ▸ hcompared)]
  | none =>
    cases f with
    | connectivity => exact (Finding.category_eq_none_iff.2 htype.symm).symm
    | detectionSkipped c =>
      cases g <;> cases htype
      exact congrArg some (Category.name_injective hentity)
    | dataIntegrity source key problem =>
      cases g <;> cases htype
      exact congrArg some (integrityEntity_inj hentity).2.1
    | _ => cases hcompared

/-- Findings about different categories differ in type or entity. -/
theorem separate_of_category_ne {c' : Category} (hf : f.category = some c)
    (hg : g.category = some c') (hc : c ≠ c') : Separate f g := by
  refine fun htype => ⟨fun hlost => ?_, fun hentity => absurd ?_ hc⟩
  · rw [Finding.category_eq_none_iff.2 hlost] at hf
    cases hf
  · have hcategory := category_eq_of_entity_eq htype hentity
    rwa [hf, hg, Option.some.injEq] at hcategory

theorem Keyed.pairwise_separate {κ : Type} {name : κ → String}
    {check : κ → Checked (Option Finding)} {problems : Source → List (κ × RecordProblem)}
    (h : Keyed c name check problems findings) : findings.Pairwise Separate := by
  obtain ⟨keys, matched, hkeys, hmatched, rfl⟩ := h.gathered
  have hcompared := type_of_mem_gather h.findsByKey hmatched
  -- a malformed record is told from what is compared by its type
  have hintegrity : ∀ source (key : String) problem, ∀ g,
      Separate (.dataIntegrity source key problem) g := fun _ _ _ _ _ =>
    ⟨by simp [Finding.type], fun _ => rfl⟩
  have hside : ∀ source, ((problems source).map fun p =>
      Finding.dataIntegrity source (name p.1) p.2).Pairwise Separate := by
    intro source
    rw [List.pairwise_map]
    exact List.pairwise_of_forall fun _ _ => hintegrity _ _ _ _
  have hentities := nodup_entity_gather h.findsByKey h.name_injective hkeys hmatched
  rw [List.Nodup, List.pairwise_map] at hentities
  have hmatched : matched.Pairwise Separate := by
    refine hentities.imp_of_mem fun {f g} hf _ hne htype => ⟨?_, fun hentity => absurd hentity hne⟩
    intro hconnectivity
    have := hcompared f hf
    rw [hconnectivity] at this
    cases this
  refine List.pairwise_append.2 ⟨List.pairwise_append.2 ⟨hside _, hside _, ?_⟩, hmatched, ?_⟩
  · intro f hf g _
    obtain ⟨p, -, rfl⟩ := List.mem_map.1 hf
    exact hintegrity _ _ _ _
  · intro f hf g _
    rcases List.mem_append.1 hf with hf | hf <;> obtain ⟨p, -, rfl⟩ := List.mem_map.1 hf <;>
      exact hintegrity _ _ _ _

theorem pairwise_separate_compareCategory (h : compareCategory t x s c = .ok findings) :
    findings.Pairwise Separate := by
  rcases compareCategory_eq_skipped_or_keyed h with rfl | ⟨_, _, _, _, hkeyed⟩
  · exact List.pairwise_singleton _ _
  · exact hkeyed.pairwise_separate

/-- **Type and entity tell the findings of a comparison apart**, reports of malformed records
aside. -/
theorem pairwise_separate_detect (h : detect t s x = .ok findings) :
    findings.Pairwise Separate := by
  have hconnectivity : (connectivity s).toList.Pairwise Separate := by
    cases connectivity s with
    | none => exact List.Pairwise.nil
    | some f => exact List.pairwise_singleton _ _
  rcases detect_cases h with ⟨-, rfl⟩ | ⟨-, b, o, p, hb, ho, hp, rfl⟩
  · exact hconnectivity
  have hfirst : ∀ {c l}, compareCategory t x s c = .ok l → ∀ f ∈ (connectivity s).toList,
      ∀ g ∈ l, Separate f g := by
    intro c l hl f hf g hg htype
    rw [type_of_mem_connectivity hf] at htype
    exact absurd htype.symm (not_connectivity_of_mem_compareCategory hl hg)
  have hacross : ∀ {c c' l l'}, compareCategory t x s c = .ok l →
      compareCategory t x s c' = .ok l' → c ≠ c' → ∀ f ∈ l, ∀ g ∈ l', Separate f g :=
    fun hl hl' hc f hf g hg => separate_of_category_ne
      (category_of_mem_compareCategory hl f hf) (category_of_mem_compareCategory hl' g hg) hc
  have howns : ∀ {c l}, compareCategory t x s c = .ok l → l.Pairwise Separate :=
    pairwise_separate_compareCategory
  simp only [List.pairwise_append, List.forall_mem_append]
  exact ⟨⟨⟨hconnectivity, howns hb, hfirst hb⟩, howns ho, hfirst ho, hacross hb ho (by decide)⟩,
    howns hp, ⟨hfirst hp, hacross hb hp (by decide)⟩, hacross ho hp (by decide)⟩

end Detection

/-! ## 3. Discrepancies -/

namespace Finding

variable (e : ExchangeId) (time : Instant) (f : Finding)

theorem id_eq_named_content :
    (f.discrepancy e time).id = .named Discrepancy.idSpace (f.discrepancy e time).content := rfl

/-- Only the error of a failed collection is free text among the values. -/
theorem noBar_discrepancy (h : f.type ≠ .connectivity) : (f.discrepancy e time).NoBar := by
  have hstatus : ∀ status : OrderStatus, '|' ∉ status.name.toList := fun status => by
    cases status <;> decide
  have hnone : '|' ∉ Discrepancy.valueChars none := by decide
  cases f with
  | connectivity => exact absurd rfl h
  | balanceMismatch _ _ expected actual =>
    exact ⟨expected.bar_notMem_toText, actual.bar_notMem_toText⟩
  | unexpectedAsset _ actual => exact ⟨hnone, actual.bar_notMem_toText⟩
  | missingAsset _ expected => exact ⟨expected.bar_notMem_toText, hnone⟩
  | orderMissing expected => exact ⟨hstatus expected.status, hnone⟩
  | orderUntracked actual => exact ⟨hnone, hstatus actual.status⟩
  | orderStatusMismatch _ expected actual => exact ⟨hstatus expected.status, hstatus actual.status⟩
  | positionMismatch _ _ _ expected actual =>
    exact ⟨expected.bar_notMem_toText, actual.bar_notMem_toText⟩
  | detectionSkipped => exact ⟨hnone, hnone⟩
  | dataIntegrity => exact ⟨hnone, hnone⟩

end Finding

/-- Content tells two separate findings apart, unless both report malformed records of a key. -/
theorem Detection.Separate.content_eq_iff {f g : Finding} (h : Separate f g) (e : ExchangeId)
    (time : Instant) :
    (f.discrepancy e time).content = (g.discrepancy e time).content ↔
      Discrepancy.SameMalformed (f.discrepancy e time) (g.discrepancy e time) := by
  constructor
  · intro hcontent
    have htype : f.type = g.type := by
      simpa using Discrepancy.type_of_content_eq (by simp) hcontent
    obtain ⟨hconnectivity, hintegrity⟩ := h htype
    have hentity : f.entity = g.entity := by
      simpa using Discrepancy.entity_of_content_eq (f.noBar_discrepancy e time hconnectivity)
        (g.noBar_discrepancy e time (htype ▸ hconnectivity)) (by simp) rfl hcontent
    have hf := hintegrity hentity
    cases f <;> cases hf
    rename_i source key problem
    exact ⟨source, problem.category, key, rfl, htype.symm, rfl, hentity.symm⟩
  · rintro ⟨source, c, key, hf, hg, hentityf, hentityg⟩
    have hvalues : ∀ h : Finding, h.type = .dataIntegrity → h.expected = none ∧ h.actual = none :=
      fun h hh => values_eq_none (by rw [hh]; rfl) (by rw [hh]; decide)
    have htype : f.type = g.type := hf.trans hg.symm
    have hentity : f.entity = g.entity := hentityf.trans hentityg.symm
    show Discrepancy.fingerprint e f.type f.entity f.expected f.actual time =
      Discrepancy.fingerprint e g.type g.entity g.expected g.actual time
    rw [(hvalues f hf).1, (hvalues f hf).2, (hvalues g hg).1, (hvalues g hg).2, htype, hentity]

namespace Discrepancy

variable {a b : Discrepancy}

theorem sameMalformed_symm (h : SameMalformed a b) : SameMalformed b a := by
  obtain ⟨source, c, key, ha, hb, hea, heb⟩ := h
  exact ⟨source, c, key, hb, ha, heb, hea⟩

/-- Content tells two discrepancies apart, unless both report malformed records of a key. -/
def ToldApart (a b : Discrepancy) : Prop := a.content = b.content ↔ SameMalformed a b

theorem toldApart_symm (h : ToldApart a b) : ToldApart b a :=
  ⟨fun hcontent => sameMalformed_symm (h.1 hcontent.symm),
    fun hsame => (h.2 (sameMalformed_symm hsame)).symm⟩

end Discrepancy

namespace ExchangeSnapshot

variable {t : Tolerances} {s : ExchangeSnapshot} {ledger : LedgerSnapshot} {ds : List Discrepancy}

theorem pairwise_toldApart (h : s.compareWithLedger t ledger = .ok ds) :
    ds.Pairwise Discrepancy.ToldApart := by
  obtain ⟨findings, hdetect, rfl⟩ := compareWithLedger_eq_ok_iff.1 h
  rw [discrepancies, (Discrepancy.perm_sort _).pairwise_iff Discrepancy.toldApart_symm,
    List.pairwise_map]
  exact (Detection.pairwise_separate_detect hdetect).imp fun hseparate =>
    hseparate.content_eq_iff s.exchange s.capturedAt

theorem id_eq_named_content (h : s.compareWithLedger t ledger = .ok ds) {d : Discrepancy}
    (hd : d ∈ ds) : d.id = .named Discrepancy.idSpace d.content := by
  obtain ⟨findings, -, rfl⟩ := compareWithLedger_eq_ok_iff.1 h
  obtain ⟨f, -, rfl⟩ := mem_discrepancies.1 hd
  exact f.id_eq_named_content s.exchange s.capturedAt

/-- **Ids identify, but for malformed records of one key.**  Two discrepancies at different places
of a comparison have the same content exactly if both report malformed records that one side has
under one key.  If no two contents of the list have the same UUID, the same goes for their ids. -/
theorem content_eq_iff_sameMalformed (h : s.compareWithLedger t ledger = .ok ds) {i j : Nat}
    (hi : i < ds.length) (hj : j < ds.length) (hij : i ≠ j) :
    (ds[i].content = ds[j].content ↔ Discrepancy.SameMalformed ds[i] ds[j]) ∧
      ((∀ a ∈ ds, ∀ b ∈ ds, Uuid.named Discrepancy.idSpace a.content =
          .named Discrepancy.idSpace b.content → a.content = b.content) →
        (ds[i].id = ds[j].id ↔ Discrepancy.SameMalformed ds[i] ds[j])) := by
  have hcontent : ds[i].content = ds[j].content ↔ Discrepancy.SameMalformed ds[i] ds[j] := by
    have hpairwise := List.pairwise_iff_getElem.1 (pairwise_toldApart h)
    rcases Nat.lt_or_gt_of_ne hij with hlt | hgt
    · exact hpairwise i j hi hj hlt
    · exact Discrepancy.toldApart_symm (hpairwise j i hj hi hgt)
  refine ⟨hcontent, fun hcollision => ?_⟩
  rw [id_eq_named_content h (List.getElem_mem hi), id_eq_named_content h (List.getElem_mem hj),
    ← hcontent]
  exact ⟨hcollision _ (List.getElem_mem hi) _ (List.getElem_mem hj), congrArg _⟩

/-- An order that the exchange reports three times, and one that the ledger does not know. -/
theorem content_eq_iff_sameMalformed_repeated_order :
    let o : Order :=
      ⟨"1", .of .exchange "paper", .of .symbol "BTCUSDT", .buy, .one, none, .zero, none, .accepted,
        none, default⟩
    let s : ExchangeSnapshot :=
      { new o.exchange default with openOrders := [o, o, o, { o with id := "2" }] }
    let ledger : LedgerSnapshot := ⟨default, 1, default, .empty⟩
    ∃ (ds : List Discrepancy) (hi : 0 < ds.length) (hj : 2 < ds.length),
      s.compareWithLedger .standard ledger = .ok ds ∧
      (ds[0].content = ds[2].content ↔ Discrepancy.SameMalformed ds[0] ds[2]) ∧
      (ds[0].id = ds[2].id ↔ Discrepancy.SameMalformed ds[0] ds[2]) := by
  intro o s ledger
  let findings : List Finding := [.dataIntegrity .exchange "1" .repeatedOrder,
    .dataIntegrity .exchange "1" .repeatedOrder, .orderUntracked { o with id := "2" }]
  have hdetect : Detection.detect .standard s (ledger.expected s.exchange) = .ok findings := by
    decide +kernel
  have hlength : (s.discrepancies findings).length = 3 := List.length_mergeSort _
  have hcompare := compareWithLedger_eq_ok_iff.2 ⟨findings, hdetect, rfl⟩
  obtain ⟨hcontent, hid⟩ := content_eq_iff_sameMalformed hcompare (i := 0) (j := 2)
    (by omega) (by omega) (by decide)
  refine ⟨s.discrepancies findings, by omega, by omega, hcompare, hcontent, hid ?_⟩
  have hnames : ∀ a ∈ findings.map (Finding.discrepancy s.exchange s.capturedAt),
      ∀ b ∈ findings.map (Finding.discrepancy s.exchange s.capturedAt),
        Uuid.named Discrepancy.idSpace a.content = .named Discrepancy.idSpace b.content →
          a.content = b.content := by
    decide +kernel
  intro a ha b hb
  rw [discrepancies, Discrepancy.mem_sort] at ha hb
  exact hnames a ha b hb

/-- Ids do not identify everything: an order that the exchange reports three times is twice in the
list, with one content and one id. -/
theorem compareWithLedger_repeated_order :
    let o : Order :=
      ⟨"1", .of .exchange "paper", .of .symbol "BTCUSDT", .buy, .one, none, .zero, none, .accepted,
        none, default⟩
    let s : ExchangeSnapshot := { new o.exchange default with openOrders := [o, o, o] }
    let ledger : LedgerSnapshot := ⟨default, 1, default, .empty⟩
    ∃ (ds : List Discrepancy) (hi : 0 < ds.length) (hj : 1 < ds.length),
      s.compareWithLedger .standard ledger = .ok ds ∧
      ds[0].content = ds[1].content ∧ ds[0].id = ds[1].id := by
  intro o s ledger
  let finding : Finding := .dataIntegrity .exchange "1" .repeatedOrder
  have hdetect : Detection.detect .standard s (ledger.expected s.exchange) =
      .ok [finding, finding] := by decide +kernel
  let d : Discrepancy := finding.discrepancy s.exchange s.capturedAt
  have hperm : (s.discrepancies [finding, finding]).Perm (List.replicate 2 d) :=
    Discrepancy.perm_sort [d, d]
  have hsort : s.discrepancies [finding, finding] = [d, d] := List.perm_replicate.1 hperm
  refine ⟨[d, d], Nat.zero_lt_succ 1, Nat.lt_succ_self 1, ?_, rfl, rfl⟩
  exact compareWithLedger_eq_ok_iff.2 ⟨_, hdetect, hsort⟩

end ExchangeSnapshot

end Reconciliation
