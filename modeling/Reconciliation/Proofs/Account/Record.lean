/-
# Account records read back

Balances, orders and positions are written as objects without numbers, so nothing is lost on the
way: decimals keep their places, times their nanoseconds, texts every character.  What cannot be
read back are identifiers that name nothing and times in years that no instant lies in.

* `Order.Storable`, `Position.Storable`: what is asked of a record;
* `Balance.ofJson?_toJson`, `Order.ofJson?_toJson`, `Position.ofJson?_toJson`: a record read back;
* `Order.storable_of_ofJson?`, `Position.storable_of_ofJson?`: only such records are;
* `Order.readable_toJson` and its siblings: the record's text can be read at all.
-/
import Reconciliation.Account.Position
import Reconciliation.Proofs.Json.Record
import Reconciliation.Proofs.Json.Text
import Reconciliation.Proofs.Numeric.DecimalText
import Reconciliation.Proofs.Time.Rfc3339

namespace Reconciliation

open Json.RecordReader

/-! ## 1. Values -/

theorem Decimal.ofJson?_toJson (d : Decimal) : Decimal.ofJson? d.toJson = some d :=
  d.ofText?_toText

theorem Identifier.ofText?_text {k : IdentifierKind} {i : Identifier k} (h : i.isEmpty = false) :
    Identifier.ofText? k i.text = some i := by
  rw [ofText?, parse, of_text, h, if_neg (by simp)]
  rfl

theorem Identifier.ofJson?_toJson {k : IdentifierKind} {i : Identifier k}
    (h : i.isEmpty = false) : Identifier.ofJson? k i.toJson = some i := by
  rw [ofJson?, toJson, Json.asText?_text, Option.bind_some, ofText?_text h]

theorem Identifier.isEmpty_of_ofJson? {k : IdentifierKind} {i i' : Identifier k}
    (h : Identifier.ofJson? k i.toJson = some i') : i.isEmpty = false := by
  rw [ofJson?, toJson, Json.asText?_text, Option.bind_some, ofText?, parse, of_text] at h
  cases hempty : i.isEmpty with
  | false => rfl
  | true =>
    rw [hempty] at h
    cases h

theorem Instant.ofJson?_toJson {a : Instant} (h : Instant.yearInRange a.date.year = true) :
    Instant.ofJson? a.toJson = some a := by
  rw [Instant.ofJson?, Instant.toJson, Json.asText?_text, Option.bind_some]
  exact a.ofText?_toZuluText h

theorem Instant.yearInRange_of_ofJson? {a a' : Instant} (h : Instant.ofJson? a.toJson = some a') :
    Instant.yearInRange a.date.year = true := by
  rw [Instant.ofJson?, Instant.toJson, Json.asText?_text, Option.bind_some] at h
  exact yearInRange_of_ofText? h

theorem Side.ofJson?_toJson (s : Side) : Side.ofJson? s.toJson = some s := by
  cases s <;> rfl

theorem OrderStatus.ofJson?_toJson (s : OrderStatus) : OrderStatus.ofJson? s.toJson = some s := by
  cases s <;> rfl

/-- An amount that may be missing. -/
theorem Decimal.asOption?_ofOption (o : Option Decimal) :
    (Json.ofOption Decimal.toJson o).asOption? Decimal.ofJson? = some o :=
  Json.asOption?_ofOption (fun _ => by simp [Decimal.toJson]) fun d _ => d.ofJson?_toJson

theorem Decimal.readable_ofOption {d : Nat} (o : Option Decimal) :
    Json.Readable d (.ofOption Decimal.toJson o) :=
  Json.readable_ofOption fun _ _ => .text _

/-! ## 2. Balances -/

theorem Balance.ofJson?_toJson (b : Balance) : Balance.ofJson? b.toJson = some b := by
  rw [ofJson?, toJson, Json.readRecord_object, required_bind rfl b.total.ofJson?_toJson,
    required_bind rfl b.free.ofJson?_toJson, required_bind rfl b.locked.ofJson?_toJson]
  rfl

theorem Balance.readable_toJson (b : Balance) : Json.Readable 1 b.toJson := by
  refine .object ?_
  simp only [List.forall_mem_cons, List.not_mem_nil, false_imp_iff, implies_true, and_true]
  exact ⟨.text _, .text _, .text _⟩

/-! ## 3. Orders -/

/-- The exchange and the symbol name something, and the time is in a year that there is. -/
structure Order.Storable (o : Order) : Prop where
  exchange : o.exchange.isEmpty = false
  symbol : o.symbol.isEmpty = false
  year : Instant.yearInRange o.updatedAt.date.year = true

theorem Order.ofJson?_toJson {o : Order} (h : o.Storable) : Order.ofJson? o.toJson = some o := by
  rw [ofJson?, toJson, Json.readRecord_object, required_bind rfl (Json.asText?_text o.id),
    required_bind rfl (Identifier.ofJson?_toJson h.exchange),
    required_bind rfl (Identifier.ofJson?_toJson h.symbol),
    required_bind rfl o.side.ofJson?_toJson, required_bind rfl o.quantity.ofJson?_toJson,
    optional_bind rfl (Decimal.asOption?_ofOption o.price),
    required_bind rfl o.filledQuantity.ofJson?_toJson,
    optional_bind rfl (Decimal.asOption?_ofOption o.averageFillPrice),
    required_bind rfl o.status.ofJson?_toJson,
    omissible_bind rfl (Json.asOption?_ofOption_text o.clientOrderId),
    required_bind rfl (Instant.ofJson?_toJson h.year)]
  rfl

/-- No other order is read back. -/
theorem Order.storable_of_ofJson? {o o' : Order} (h : Order.ofJson? o.toJson = some o') :
    o.Storable := by
  rw [ofJson?, toJson, Json.readRecord_object, Option.map_eq_some_iff] at h
  obtain ⟨_, h, -⟩ := h
  rw [required_bind rfl (Json.asText?_text o.id)] at h
  obtain ⟨_, hexchange, h⟩ := exists_of_required_bind rfl h
  obtain ⟨_, hsymbol, h⟩ := exists_of_required_bind rfl h
  rw [required_bind rfl o.side.ofJson?_toJson, required_bind rfl o.quantity.ofJson?_toJson,
    optional_bind rfl (Decimal.asOption?_ofOption o.price),
    required_bind rfl o.filledQuantity.ofJson?_toJson,
    optional_bind rfl (Decimal.asOption?_ofOption o.averageFillPrice),
    required_bind rfl o.status.ofJson?_toJson,
    omissible_bind rfl (Json.asOption?_ofOption_text o.clientOrderId)] at h
  obtain ⟨_, hyear, -⟩ := exists_of_required_bind rfl h
  exact {
    exchange := Identifier.isEmpty_of_ofJson? hexchange
    symbol := Identifier.isEmpty_of_ofJson? hsymbol
    year := Instant.yearInRange_of_ofJson? hyear }

theorem Order.readable_toJson (o : Order) : Json.Readable 1 o.toJson := by
  have hclient : Json.Readable 0 (.ofOption .text o.clientOrderId) :=
    Json.readable_ofOption fun s _ => .text s
  refine .object ?_
  simp only [List.forall_mem_cons, List.not_mem_nil, false_imp_iff, implies_true, and_true]
  exact ⟨.text _, .text _, .text _, .text _, .text _, Decimal.readable_ofOption _, .text _,
    Decimal.readable_ofOption _, .text _, hclient, .text _⟩

/-! ## 4. Positions -/

/-- The exchange and the symbol name something, and the time is in a year that there is. -/
structure Position.Storable (p : Position) : Prop where
  exchange : p.exchange.isEmpty = false
  symbol : p.symbol.isEmpty = false
  year : Instant.yearInRange p.updatedAt.date.year = true

theorem Position.asOption?_side (p : Position) :
    (Json.ofOption Side.toJson p.side).asOption? Side.ofJson? = some p.side :=
  Json.asOption?_ofOption (fun _ => by simp [Side.toJson]) fun s _ => s.ofJson?_toJson

theorem Position.ofJson?_toJson {p : Position} (h : p.Storable) :
    Position.ofJson? p.toJson = some p := by
  rw [ofJson?, toJson, Json.readRecord_object,
    required_bind rfl (Identifier.ofJson?_toJson h.exchange),
    required_bind rfl (Identifier.ofJson?_toJson h.symbol), optional_bind rfl p.asOption?_side,
    required_bind rfl p.quantity.ofJson?_toJson,
    optional_bind rfl (Decimal.asOption?_ofOption p.entryPrice),
    omissible_bind rfl (Decimal.asOption?_ofOption p.markPrice),
    required_bind rfl (Instant.ofJson?_toJson h.year)]
  rfl

/-- No other position is read back. -/
theorem Position.storable_of_ofJson? {p p' : Position}
    (h : Position.ofJson? p.toJson = some p') : p.Storable := by
  rw [ofJson?, toJson, Json.readRecord_object, Option.map_eq_some_iff] at h
  obtain ⟨_, h, -⟩ := h
  obtain ⟨_, hexchange, h⟩ := exists_of_required_bind rfl h
  obtain ⟨_, hsymbol, h⟩ := exists_of_required_bind rfl h
  rw [optional_bind rfl p.asOption?_side, required_bind rfl p.quantity.ofJson?_toJson,
    optional_bind rfl (Decimal.asOption?_ofOption p.entryPrice),
    omissible_bind rfl (Decimal.asOption?_ofOption p.markPrice)] at h
  obtain ⟨_, hyear, -⟩ := exists_of_required_bind rfl h
  exact {
    exchange := Identifier.isEmpty_of_ofJson? hexchange
    symbol := Identifier.isEmpty_of_ofJson? hsymbol
    year := Instant.yearInRange_of_ofJson? hyear }

theorem Position.readable_toJson (p : Position) : Json.Readable 1 p.toJson := by
  have hside : Json.Readable 0 (.ofOption Side.toJson p.side) :=
    Json.readable_ofOption fun _ _ => .text _
  refine .object ?_
  simp only [List.forall_mem_cons, List.not_mem_nil, false_imp_iff, implies_true, and_true]
  exact ⟨.text _, .text _, hside, .text _, Decimal.readable_ofOption _,
    Decimal.readable_ofOption _, .text _⟩

end Reconciliation
