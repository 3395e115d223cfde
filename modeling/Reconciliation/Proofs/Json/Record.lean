/-
# Records read field by field

A field that a record was written with is found under its name, and reading goes on with the
fields that follow.  So the reading of a whole record comes down to that of its values.

* `required_bind`, `optional_bind`, `defaulted_bind`, `omissible_bind`: one field;
* `exists_of_required_bind`: one field, of a record that can be read;
* `asOption?_ofOption`: a value that may be missing;
* `asList?_map`, `asMembers?_map`: the items of a list, and members of different names.
-/
import Reconciliation.Json.Record

namespace Reconciliation
namespace Json

theorem readRecord_object {α : Type} (reader : RecordReader α) (members : List (String × Json)) :
    readRecord reader (.object members) = (reader (.named members)).map (·.1) := rfl

theorem asText?_text (s : String) : asText? (.text s) = some s := rfl

/-- A value that is written as something or as `null`. -/
theorem asOption?_ofOption {α : Type} {write : α → Json} {read : Json → Option α}
    (hnull : ∀ a, write a ≠ .null) {o : Option α} (h : ∀ a ∈ o, read (write a) = some a) :
    (ofOption write o).asOption? read = some o := by
  cases o with
  | none => rfl
  | some a =>
    rw [ofOption, asOption?, h a rfl, Option.map_some]
    exact fun hw => hnull a hw

/-- A text that may be missing. -/
theorem asOption?_ofOption_text (o : Option String) :
    (ofOption .text o).asOption? asText? = some o :=
  asOption?_ofOption (fun _ => by simp) fun s _ => asText?_text s

/-- Values that are read back one by one are read back together. -/
theorem mapM_map_eq_some {α β : Type} {write : α → β} {read : β → Option α} {l : List α}
    (h : ∀ a ∈ l, read (write a) = some a) : (l.map write).mapM read = some l := by
  induction l with
  | nil => rfl
  | cons a rest ih =>
    obtain ⟨ha, hrest⟩ := List.forall_mem_cons.1 h
    rw [List.map_cons, List.mapM_cons, ha, ih hrest]
    rfl

theorem asList?_map {α : Type} {write : α → Json} {read : Json → Option α} {l : List α}
    (h : ∀ a ∈ l, read (write a) = some a) : (Json.array (l.map write)).asList? read = some l :=
  mapM_map_eq_some h

theorem lookup_eq_none {name : String} {members : List (String × Json)}
    (h : name ∉ members.map (·.1)) : lookup name members = none := by
  induction members with
  | nil => rfl
  | cons m rest ih =>
    rw [List.map_cons, List.mem_cons, not_or] at h
    rw [lookup, ih h.2, if_neg (Ne.symm h.1)]

/-- Of members with different names, all count. -/
theorem distinct_of_nodup {members : List (String × Json)} (h : (members.map (·.1)).Nodup) :
    distinct members = members := by
  induction members with
  | nil => rfl
  | cons m rest ih =>
    rw [List.map_cons, List.nodup_cons] at h
    rw [distinct, lookup_eq_none h.1, ih h.2]
    rfl

/-- Members of an object, each with a name of its own. -/
theorem asMembers?_map {κ α : Type} {nameOf : κ → String} {readName : String → Option κ}
    {write : α → Json} {read : Json → Option α} {entries : List (κ × α)}
    (hnodup : (entries.map fun e => nameOf e.1).Nodup)
    (hname : ∀ e ∈ entries, readName (nameOf e.1) = some e.1)
    (hvalue : ∀ e ∈ entries, read (write e.2) = some e.2) :
    (Json.object (entries.map fun e => (nameOf e.1, write e.2))).asMembers? readName read =
      some entries := by
  rw [asMembers?, distinct_of_nodup (by rw [List.map_map]; exact hnodup)]
  refine mapM_map_eq_some fun e he => ?_
  simp [hname e he, hvalue e he]

namespace RecordReader

variable {α β : Type} {name : String} {read : Json → Option α} {members : List (String × Json)}
  {v : Json} {a : α}

theorem required_bind (hv : lookup name members = some v) (ha : read v = some a)
    (next : α → RecordReader β) :
    (required name read >>= next) (.named members) = next a (.named members) := by
  simp [bind, StateT.bind, required, take?, hv, ha]

/-- What is read from a record is read from each of its fields. -/
theorem exists_of_required_bind {next : α → RecordReader β} {x : β × Fields}
    (hv : lookup name members = some v)
    (h : (required name read >>= next) (.named members) = some x) :
    ∃ a, read v = some a ∧ next a (.named members) = some x := by
  cases ha : read v with
  | none => simp [bind, StateT.bind, required, take?, hv, ha] at h
  | some a =>
    rw [required_bind hv ha] at h
    exact ⟨a, rfl, h⟩

theorem optional_bind {o : Option α} (hv : lookup name members = some v)
    (ho : v.asOption? read = some o) (next : Option α → RecordReader β) :
    (optional name read >>= next) (.named members) = next o (.named members) := by
  simp [bind, StateT.bind, optional, take?, hv, ho]

theorem defaulted_bind {default : α} (hv : lookup name members = some v) (ha : read v = some a)
    (next : α → RecordReader β) :
    (defaulted name default read >>= next) (.named members) = next a (.named members) := by
  simp [bind, StateT.bind, defaulted, take?, hv, ha]

theorem omissible_bind {o : Option α} (hv : lookup name members = some v)
    (ho : v.asOption? read = some o) (next : Option α → RecordReader β) :
    (omissible name read >>= next) (.named members) = next o (.named members) :=
  defaulted_bind hv ho next

end RecordReader

end Json
end Reconciliation
