/-
# Reports read back

A report is written as an object of two records, the session with its discrepancies and the
figures.  Sets and maps of exchanges are written in key order, and reading puts them together
again.  What cannot be read back are exchanges that name nothing, times in years that no instant
lies in, and numbers beyond 64 bits; whether the one double is read back is asked of its text.

* `Discrepancy.Storable`, `Session.Storable`, `ReportSummary.Storable`, `Report.Storable`: what is
  asked of a record;
* `Report.ofJson?_toJson`: a report read back from its value;
* `Report.ofText?_payload`: a report read back from its text.
-/
import Reconciliation.Session.Report
import Reconciliation.Proofs.Identifier
import Reconciliation.Proofs.Json.Number
import Reconciliation.Proofs.Uuid

namespace Reconciliation

open Json.RecordReader

/-! ## 1. Values -/

theorem Uuid.ofJson?_toJson (u : Uuid) : Uuid.ofJson? u.toJson = some u := by
  rw [ofJson?, toJson, Json.asText?_text, Option.bind_some, ofText?_toText]

theorem Severity.ofJson?_toJson (s : Severity) : Severity.ofJson? s.toJson = some s := by
  cases s <;> rfl

theorem DiscrepancyType.ofJson?_toJson (t : DiscrepancyType) :
    DiscrepancyType.ofJson? t.toJson = some t := by
  cases t <;> rfl

theorem SessionStatus.ofJson?_toJson (s : SessionStatus) :
    SessionStatus.ofJson? s.toJson = some s := by
  cases s <;> rfl

theorem ExchangeOutcome.ofJson?_toJson (o : ExchangeOutcome) :
    ExchangeOutcome.ofJson? o.toJson = some o := by
  cases o <;> rfl

/-! ## 2. Discrepancies -/

/-- The exchange names something, and the time is in a year that there is. -/
structure Discrepancy.Storable (d : Discrepancy) : Prop where
  exchange : d.exchange.isEmpty = false
  year : Instant.yearInRange d.detectedAt.date.year = true

theorem Discrepancy.ofJson?_toJson {d : Discrepancy} (h : d.Storable) :
    Discrepancy.ofJson? d.toJson = some d := by
  rw [ofJson?, toJson, Json.readRecord_object, required_bind rfl d.id.ofJson?_toJson,
    required_bind rfl (Identifier.ofJson?_toJson h.exchange),
    required_bind rfl d.type.ofJson?_toJson, required_bind rfl d.severity.ofJson?_toJson,
    required_bind rfl (Json.asText?_text d.entity),
    optional_bind rfl (Json.asOption?_ofOption_text d.expected),
    optional_bind rfl (Json.asOption?_ofOption_text d.actual),
    required_bind rfl (Json.asText?_text d.description),
    required_bind rfl (Instant.ofJson?_toJson h.year)]
  rfl

theorem Discrepancy.readable_toJson (d : Discrepancy) : Json.Readable 1 d.toJson := by
  refine .object ?_
  simp only [timelessMembers, List.cons_append, List.nil_append, List.forall_mem_cons,
    List.not_mem_nil, false_imp_iff, implies_true, and_true]
  exact ⟨.text _, .text _, .text _, .text _, .text _, Json.readable_ofOption fun s _ => .text s,
    Json.readable_ofOption fun s _ => .text s, .text _, .text _⟩

/-! ## 3. Sets and maps of exchanges -/

/-- Every exchange of a list names something. -/
def AllNamed (exchanges : List ExchangeId) : Prop := ∀ e ∈ exchanges, e.isEmpty = false

theorem Session.asList?_checkedJson {s : SortedSet ExchangeId} (h : AllNamed (SortedSet.toList s)) :
    (Session.checkedJson s).asList? (Identifier.ofJson? .exchange) = some (SortedSet.toList s) :=
  Json.asList?_map fun e he => Identifier.ofJson?_toJson (h e he)

theorem Session.readable_checkedJson {d : Nat} (s : SortedSet ExchangeId) :
    Json.Readable (d + 1) (Session.checkedJson s) :=
  Json.readable_map fun e _ => .text e.text

theorem Session.asMembers?_outcomesJson {s : Session} (h : AllNamed s.outcomes.keys) :
    s.outcomesJson.asMembers? (Identifier.ofText? .exchange) ExchangeOutcome.ofJson? =
      some s.outcomes.entries :=
  Identifier.asMembers?_entries h fun o _ => o.ofJson?_toJson

theorem Session.readable_outcomesJson {d : Nat} (s : Session) :
    Json.Readable (d + 1) s.outcomesJson :=
  .object (List.forall_mem_map.2 fun _ _ => .text _)

/-! ## 4. Sessions -/

/-- What a session holds can be written: its exchanges name something, its times are in years
that there are, and the ledger's version is a word. -/
structure Session.Storable (s : Session) : Prop where
  startYear : Instant.yearInRange s.startTime.date.year = true
  endYear : ∀ time ∈ s.endTime, Instant.yearInRange time.date.year = true
  checked : AllNamed (SortedSet.toList s.checked)
  outcomes : AllNamed s.outcomes.keys
  discrepancies : ∀ d ∈ s.discrepancies, d.Storable
  ledgerVersion : ∀ version ∈ s.ledgerVersion, version < wordCount

theorem Session.storable_start {id : Uuid} {time : Instant}
    (h : Instant.yearInRange time.date.year = true) : (Session.start id time).Storable where
  startYear := h
  endYear _ htime := by cases htime
  checked _ he := by cases he
  outcomes _ he := by cases he
  discrepancies _ hd := by cases hd
  ledgerVersion _ hversion := by cases hversion

theorem Session.Storable.recordFailure {s : Session} (h : s.Storable) {exchange : ExchangeId}
    (hexchange : exchange.isEmpty = false) : (s.recordFailure exchange).Storable where
  startYear := h.startYear
  endYear := h.endYear
  checked e he := h.checked e (SortedSet.mem_toList_erase.1 he).2
  outcomes e he := by
    obtain rfl | he := SortedMap.mem_keys_insert.1 he
    · exact hexchange
    · exact h.outcomes e he
  discrepancies := h.discrepancies
  ledgerVersion := h.ledgerVersion

theorem Session.ofJson?_toJson {s : Session} (h : s.Storable) :
    Session.ofJson? s.toJson = some s := by
  have hend : (Json.ofOption Instant.toJson s.endTime).asOption? Instant.ofJson? =
      some s.endTime :=
    Json.asOption?_ofOption (fun _ => by simp [Instant.toJson]) fun time htime =>
      Instant.ofJson?_toJson (h.endYear time htime)
  have hversion : (Json.ofOption Json.ofNat s.ledgerVersion).asOption? Json.asNat64? =
      some s.ledgerVersion :=
    Json.asOption?_ofOption (fun _ => by simp [Json.ofNat]) fun version hversion =>
      Json.asNat64?_ofNat (h.ledgerVersion version hversion)
  have hdiscrepancies : (Json.array (s.discrepancies.map (·.toJson))).asList?
      Discrepancy.ofJson? = some s.discrepancies :=
    Json.asList?_map fun d hd => Discrepancy.ofJson?_toJson (h.discrepancies d hd)
  have hnotes : (Json.array (s.notes.map .text)).asList? Json.asText? = some s.notes :=
    Json.asList?_map fun note _ => Json.asText?_text note
  have hcancelled : Json.asBool? (.bool s.cancelled) = some s.cancelled := rfl
  rw [ofJson?, toJson, Json.readRecord_object, required_bind rfl s.id.ofJson?_toJson,
    required_bind rfl (Instant.ofJson?_toJson h.startYear), optional_bind rfl hend,
    required_bind rfl s.status.ofJson?_toJson,
    required_bind rfl (Session.asList?_checkedJson h.checked),
    required_bind rfl (Session.asMembers?_outcomesJson h.outcomes),
    required_bind rfl hdiscrepancies, optional_bind rfl hversion, required_bind rfl hcancelled,
    required_bind rfl hnotes, SortedSet.ofKeys_toList, SortedMap.ofList_entries]
  rfl

/-- The record of a session nests three levels deep. -/
theorem Session.readable_toJson {s : Session} (h : s.Storable) : Json.Readable 3 s.toJson := by
  refine .object ?_
  simp only [List.forall_mem_cons, List.not_mem_nil, false_imp_iff, implies_true, and_true]
  exact ⟨.text _, .text _, Json.readable_ofOption fun _ _ => .text _, .text _,
    readable_checkedJson _, s.readable_outcomesJson,
    Json.readable_map fun d _ => d.readable_toJson,
    Json.readable_ofOption fun version hversion =>
      Json.readable_ofNat (h.ledgerVersion version hversion),
    .bool _, Json.readable_map fun note _ => .text note⟩

/-! ## 5. Reports -/

/-- The counts are words, the duration is read back from its text, and the exchanges name
something. -/
structure ReportSummary.Storable (s : ReportSummary) : Prop where
  total : s.total < wordCount
  critical : s.critical < wordCount
  warning : s.warning < wordCount
  info : s.info < wordCount
  duration :
    Json.ofText? (Json.ofReal s.durationSeconds).compact = some (.ofReal s.durationSeconds)
  checked : AllNamed (SortedSet.toList s.checked)

theorem ReportSummary.ofJson?_toJson {s : ReportSummary} (h : s.Storable) :
    ReportSummary.ofJson? s.toJson = some s := by
  have hduration : Json.asReal? (.ofReal s.durationSeconds) = some s.durationSeconds := rfl
  rw [ofJson?, toJson, Json.readRecord_object, required_bind rfl (Json.asNat64?_ofNat h.total),
    required_bind rfl (Json.asNat64?_ofNat h.critical),
    required_bind rfl (Json.asNat64?_ofNat h.warning),
    required_bind rfl (Json.asNat64?_ofNat h.info), required_bind rfl hduration,
    required_bind rfl (Session.asList?_checkedJson h.checked), SortedSet.ofKeys_toList]
  rfl

theorem ReportSummary.readable_toJson {d : Nat} {s : ReportSummary} (h : s.Storable) :
    Json.Readable (d + 2) s.toJson := by
  refine .object ?_
  simp only [countMembers, List.cons_append, List.nil_append, List.forall_mem_cons,
    List.not_mem_nil, false_imp_iff, implies_true, and_true]
  exact ⟨Json.readable_ofNat h.total, Json.readable_ofNat h.critical,
    Json.readable_ofNat h.warning, Json.readable_ofNat h.info, Json.readable_ofReal h.duration,
    Session.readable_checkedJson _⟩

/-- Both parts of the report can be written. -/
structure Report.Storable (r : Report) : Prop where
  session : r.session.Storable
  summary : r.summary.Storable

/-- A session that can be written is closed into a report that can. -/
theorem Report.storable_ofSession {s : Session} {time : Instant} (h : s.Storable)
    (hyear : Instant.yearInRange time.date.year = true)
    (hcount : s.discrepancies.length < wordCount)
    (hduration : let d := (Report.ofSession s time).summary.durationSeconds
      Json.ofText? (Json.ofReal d).compact = some (.ofReal d)) :
    (Report.ofSession s time).Storable := by
  have hend : Instant.yearInRange (time.max s.startTime).date.year = true := by
    unfold Instant.max
    split
    · exact hyear
    · exact h.startYear
  have hcounts : ∀ severity, countSeverity severity s.discrepancies < wordCount := fun _ =>
    Nat.lt_of_le_of_lt List.countP_le_length hcount
  refine ⟨{ h with endYear := fun _ hsome => ?_ },
    hcount, hcounts _, hcounts _, hcounts _, hduration, h.checked⟩
  cases hsome
  exact hend

/-- **A report read back from its record is the same.** -/
theorem Report.ofJson?_toJson {r : Report} (h : r.Storable) : Report.ofJson? r.toJson = some r := by
  rw [ofJson?, toJson, Json.readRecord_object,
    required_bind rfl (Session.ofJson?_toJson h.session),
    required_bind rfl (ReportSummary.ofJson?_toJson h.summary)]
  rfl

theorem Report.readable_toJson {r : Report} (h : r.Storable) : Json.Readable 4 r.toJson := by
  refine .object ?_
  simp only [List.forall_mem_cons, List.not_mem_nil, false_imp_iff, implies_true, and_true]
  exact ⟨Session.readable_toJson h.session, ReportSummary.readable_toJson h.summary⟩

/-- **A report read back from its text is the same.** -/
theorem Report.ofText?_payload {r : Report} (h : r.Storable) :
    (Json.ofText? r.toJson.compact).bind Report.ofJson? = some r := by
  rw [Json.ofText?_compact (Report.readable_toJson h) (by decide), Option.bind_some,
    Report.ofJson?_toJson h]

end Reconciliation
