/-
# Changes read back from the journal

A change is stored as JSON text with its kind in front.  Each of the six kinds is read back as the
very change that was stored, so what a ledger was told is what its journal tells the next one.

* `LedgerMutation.Storable`: what is asked of a change;
* `LedgerMutation.ofJson?_toJson`: a change read back from its record;
* `LedgerMutation.ofText?_payload`: a change read back from its text;
* `LedgerMutation.ofText?_payload_eq_some_iff`: when there is one.
-/
import Reconciliation.Ledger.Mutation
import Reconciliation.Proofs.Account.Record

namespace Reconciliation
namespace LedgerMutation

open Json.RecordReader

/-- What the change is about has a name, and its time is in a year that there is. -/
def Storable : LedgerMutation → Prop
  | .setBalance e a _ => e.isEmpty = false ∧ a.isEmpty = false
  | .adjustBalance e a _ _ => e.isEmpty = false ∧ a.isEmpty = false
  | .upsertOrder o => o.Storable
  | .removeOrder e _ => e.isEmpty = false
  | .setPosition p => p.Storable
  | .closePosition e s => e.isEmpty = false ∧ s.isEmpty = false

/-- **A change read back from its record is the same.** -/
theorem ofJson?_toJson {m : LedgerMutation} (h : m.Storable) :
    LedgerMutation.ofJson? m.toJson = some m := by
  rw [ofJson?, toJson, Json.readRecord_object]
  cases m with
  | setBalance e a b =>
    obtain ⟨he, ha⟩ := h
    rw [required_bind rfl (Json.asText?_text _), kind, readFields, fields,
      required_bind rfl (Identifier.ofJson?_toJson he),
      required_bind rfl (Identifier.ofJson?_toJson ha), required_bind rfl b.ofJson?_toJson]
    rfl
  | adjustBalance e a f l =>
    obtain ⟨he, ha⟩ := h
    rw [required_bind rfl (Json.asText?_text _), kind, readFields, fields,
      required_bind rfl (Identifier.ofJson?_toJson he),
      required_bind rfl (Identifier.ofJson?_toJson ha), required_bind rfl f.ofJson?_toJson,
      defaulted_bind rfl l.ofJson?_toJson]
    rfl
  | upsertOrder o =>
    rw [required_bind rfl (Json.asText?_text _), kind, readFields, fields,
      required_bind rfl (Order.ofJson?_toJson h)]
    rfl
  | removeOrder e id =>
    rw [required_bind rfl (Json.asText?_text _), kind, readFields, fields,
      required_bind rfl (Identifier.ofJson?_toJson h), required_bind rfl (Json.asText?_text id)]
    rfl
  | setPosition p =>
    rw [required_bind rfl (Json.asText?_text _), kind, readFields, fields,
      required_bind rfl (Position.ofJson?_toJson h)]
    rfl
  | closePosition e s =>
    obtain ⟨he, hs⟩ := h
    rw [required_bind rfl (Json.asText?_text _), kind, readFields, fields,
      required_bind rfl (Identifier.ofJson?_toJson he),
      required_bind rfl (Identifier.ofJson?_toJson hs)]
    rfl

/-- No other change is read back. -/
theorem storable_of_ofJson? {m m' : LedgerMutation}
    (h : LedgerMutation.ofJson? m.toJson = some m') : m.Storable := by
  rw [ofJson?, toJson, Json.readRecord_object, Option.map_eq_some_iff] at h
  obtain ⟨_, h, -⟩ := h
  cases m with
  | setBalance e a b =>
    rw [required_bind rfl (Json.asText?_text _), kind, readFields, fields] at h
    obtain ⟨_, he, h⟩ := exists_of_required_bind rfl h
    obtain ⟨_, ha, -⟩ := exists_of_required_bind rfl h
    exact ⟨Identifier.isEmpty_of_ofJson? he, Identifier.isEmpty_of_ofJson? ha⟩
  | adjustBalance e a f l =>
    rw [required_bind rfl (Json.asText?_text _), kind, readFields, fields] at h
    obtain ⟨_, he, h⟩ := exists_of_required_bind rfl h
    obtain ⟨_, ha, -⟩ := exists_of_required_bind rfl h
    exact ⟨Identifier.isEmpty_of_ofJson? he, Identifier.isEmpty_of_ofJson? ha⟩
  | upsertOrder o =>
    rw [required_bind rfl (Json.asText?_text _), kind, readFields, fields] at h
    obtain ⟨_, ho, -⟩ := exists_of_required_bind rfl h
    exact Order.storable_of_ofJson? ho
  | removeOrder e id =>
    rw [required_bind rfl (Json.asText?_text _), kind, readFields, fields] at h
    obtain ⟨_, he, -⟩ := exists_of_required_bind rfl h
    exact Identifier.isEmpty_of_ofJson? he
  | setPosition p =>
    rw [required_bind rfl (Json.asText?_text _), kind, readFields, fields] at h
    obtain ⟨_, hp, -⟩ := exists_of_required_bind rfl h
    exact Position.storable_of_ofJson? hp
  | closePosition e s =>
    rw [required_bind rfl (Json.asText?_text _), kind, readFields, fields] at h
    obtain ⟨_, he, h⟩ := exists_of_required_bind rfl h
    obtain ⟨_, hs, -⟩ := exists_of_required_bind rfl h
    exact ⟨Identifier.isEmpty_of_ofJson? he, Identifier.isEmpty_of_ofJson? hs⟩

/-- The record of a change nests two levels deep and has no numbers. -/
theorem readable_toJson (m : LedgerMutation) : Json.Readable 2 m.toJson := by
  refine .object ?_
  cases m <;> simp only [fields, List.forall_mem_cons, List.not_mem_nil, false_imp_iff,
    implies_true, and_true]
  case setBalance e a b => exact ⟨.text _, .text _, .text _, b.readable_toJson⟩
  case adjustBalance e a f l => exact ⟨.text _, .text _, .text _, .text _, .text _⟩
  case upsertOrder o => exact ⟨.text _, o.readable_toJson⟩
  case removeOrder e id => exact ⟨.text _, .text _, .text _⟩
  case setPosition p => exact ⟨.text _, p.readable_toJson⟩
  case closePosition e s => exact ⟨.text _, .text _, .text _⟩

/-- **A change read back from its text is the same.** -/
theorem ofText?_payload {m : LedgerMutation} (h : m.Storable) :
    (Json.ofText? m.toJson.compact).bind LedgerMutation.ofJson? = some m := by
  rw [Json.ofText?_compact m.readable_toJson (by decide), Option.bind_some, ofJson?_toJson h]

/-- **What is read from the text of a change is that change**, and there is one exactly if the
change can be stored. -/
theorem ofText?_payload_eq_some_iff {m m' : LedgerMutation} :
    (Json.ofText? m.toJson.compact).bind LedgerMutation.ofJson? = some m' ↔
      m.Storable ∧ m' = m := by
  constructor
  · intro h
    have hm : m.Storable := by
      rw [Json.ofText?_compact m.readable_toJson (by decide), Option.bind_some] at h
      exact storable_of_ofJson? h
    rw [ofText?_payload hm, Option.some.injEq] at h
    exact ⟨hm, h.symm⟩
  · rintro ⟨hm, rfl⟩
    exact ofText?_payload hm

end LedgerMutation
end Reconciliation
