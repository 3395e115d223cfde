/-
# Two spellings of one name

Exchanges, assets and symbols are told apart by identifiers, and an identifier is all that is left
of the text it was made of.  So what matters is which texts become the same identifier.

The answer is given without the functions that make one: `Text.TrimsTo` takes a text apart into
blanks, a core that neither begins nor ends with one, and blanks; `Text.SameLetter` pairs the 26
capital letters of ASCII with the small ones and every other character with itself.  Texts spell
the same name if their cores have the same length and the same letters (`Text.SameName`), whatever
other characters there are in them.

* `Text.trimsTo_iff`: there is exactly one core;
* `IdentifierKind.foldCase_eq_iff`: one case or the other, the same letters become equal;
* `Identifier.of_eq_of_iff`: the texts of one identifier are the spellings of one name;
* `Identifier.ofJson?_ofText?_compact`, `Identifier.ofMembers?_ofText?_compact`: identifiers are
  read back from text, by themselves and as the keys of a map;
* `Identifier.one_per_name`: all of this for every text, and what it means for maps.
-/
import Mathlib.Data.List.Forall2
import Mathlib.Data.List.TakeWhile
import Reconciliation.Proofs.Account.Record
import Reconciliation.Proofs.SortedMap

namespace Reconciliation

/-! ## 1. Texts that spell the same name -/

namespace Text

/-- `core` is what is left of `cs` without the blanks at its ends. -/
structure TrimsTo (cs core : List Char) : Prop where
  parts : ∃ front back, cs = front ++ core ++ back ∧
    (∀ c ∈ front, isBlank c = true) ∧ ∀ c ∈ back, isBlank c = true
  first : ∀ c ∈ core.head?, isBlank c = false
  last : ∀ c ∈ core.getLast?, isBlank c = false

/-- The same character, or the same one of the 26 letters of ASCII in its two cases. -/
def SameLetter (c d : Char) : Prop :=
  c = d ∨ ∃ i < 26, (c.toNat = 'A'.toNat + i ∧ d.toNat = 'a'.toNat + i) ∨
    (c.toNat = 'a'.toNat + i ∧ d.toNat = 'A'.toNat + i)

/-- The same letters between the blanks at the ends. -/
def SameName (s t : String) : Prop :=
  ∃ cs ds, TrimsTo s.toList cs ∧ TrimsTo t.toList ds ∧ List.Forall₂ SameLetter cs ds

instance (c d : Char) : Decidable (SameLetter c d) := inferInstanceAs (Decidable (_ ∨ _))

/-- Blanks in front are dropped, up to a character that is none. -/
theorem dropWhile_blanks_append {front cs : List Char} (hfront : ∀ c ∈ front, isBlank c = true)
    (hfirst : ∀ c ∈ cs.head?, isBlank c = false) : (front ++ cs).dropWhile isBlank = cs := by
  rw [List.dropWhile_append_of_pos hfront]
  exact dropWhile_eq_self_iff.2 hfirst

theorem trimEnd_append_blanks {cs back : List Char} (hback : ∀ c ∈ back, isBlank c = true)
    (hlast : ∀ c ∈ cs.getLast?, isBlank c = false) : trimEnd (cs ++ back) = cs := by
  rw [trimEnd, List.reverse_append, dropWhile_blanks_append, List.reverse_reverse]
  · exact fun c hc => hback c (List.mem_reverse.1 hc)
  · rwa [List.head?_reverse]

theorem trimsTo_trim (cs : List Char) : TrimsTo cs (trim cs) where
  parts := by
    refine ⟨cs.takeWhile isBlank, ((trimStart cs).reverse.takeWhile isBlank).reverse, ?_, ?_, ?_⟩
    · have hend : trim cs ++ ((trimStart cs).reverse.takeWhile isBlank).reverse = trimStart cs := by
        rw [trim, trimEnd, ← List.reverse_append, List.takeWhile_append_dropWhile,
          List.reverse_reverse]
      rw [List.append_assoc, hend]
      exact List.takeWhile_append_dropWhile.symm
    · exact fun c hc => List.mem_takeWhile_imp hc
    · exact fun c hc => List.mem_takeWhile_imp (List.mem_reverse.1 hc)
  first c hc := head?_dropWhile (head?_trimEnd hc)
  last c hc := by
    rw [trim, trimEnd, List.getLast?_reverse] at hc
    exact head?_dropWhile hc

/-- **A text has exactly one core**, and trimming finds it. -/
theorem trimsTo_iff {cs core : List Char} : TrimsTo cs core ↔ core = trim cs := by
  constructor
  · rintro ⟨⟨front, back, rfl, hfront, hback⟩, hfirst, hlast⟩
    have hstart : trimStart (front ++ core ++ back) = (core ++ back).dropWhile isBlank := by
      rw [trimStart, List.append_assoc, List.dropWhile_append_of_pos hfront]
    rw [trim, hstart]
    rcases eq_or_ne core [] with rfl | hne
    · -- without a core, all of the text is blank
      rw [List.nil_append, List.dropWhile_eq_nil_iff.2 hback]
      rfl
    · have hcore : (core ++ back).dropWhile isBlank = core ++ back := by
        refine dropWhile_eq_self_iff.2 fun c hc => hfirst c ?_
        rwa [List.head?_append_of_ne_nil _ hne] at hc
      rw [hcore, trimEnd_append_blanks hback hlast]
  · rintro rfl
    exact trimsTo_trim cs

theorem sameName_iff {s t : String} :
    SameName s t ↔ List.Forall₂ SameLetter (trim s.toList) (trim t.toList) := by
  constructor
  · rintro ⟨cs, ds, hcs, hds, hsame⟩
    rwa [trimsTo_iff.1 hcs, trimsTo_iff.1 hds] at hsame
  · exact fun hsame => ⟨_, _, trimsTo_trim _, trimsTo_trim _, hsame⟩

instance (s t : String) : Decidable (SameName s t) := decidable_of_iff' _ sameName_iff

example : SameName " Bybit_Linear" "bYBIT_lINEAR\u3000" := by decide

example : ¬ SameName "é" "É" := by decide

end Text

/-! ## 2. Identifiers of texts -/

/-- **One case or the other, the same letters become equal** and no others do. -/
theorem IdentifierKind.foldCase_eq_iff (k : IdentifierKind) {c d : Char} :
    k.foldCase c = k.foldCase d ↔ Text.SameLetter c d := by
  have hfold : k.foldCase c = k.foldCase d ↔ (k.foldCase c).toNat = (k.foldCase d).toNat :=
    ⟨congrArg Char.toNat, char_eq_of_toNat⟩
  have hsame : c = d ↔ c.toNat = d.toNat := ⟨congrArg Char.toNat, char_eq_of_toNat⟩
  have hcapital : 'A'.toNat = 65 := rfl
  have hsmall : 'a'.toNat = 97 := rfl
  rw [hfold, Text.SameLetter, hsame, hcapital, hsmall]
  constructor
  · intro h
    have hcases : c.toNat = d.toNat ∨ (65 ≤ c.toNat ∧ c.toNat ≤ 90 ∧ d.toNat = c.toNat + 32) ∨
        (65 ≤ d.toNat ∧ d.toNat ≤ 90 ∧ c.toNat = d.toNat + 32) := by
      cases k <;> simp only [foldCase, toNat_toLower, toNat_toUpper] at h <;>
        split at h <;> split at h <;> omega
    rcases hcases with heq | ⟨hlow, hhigh, hd⟩ | ⟨hlow, hhigh, hc⟩
    · exact .inl heq
    · exact .inr ⟨c.toNat - 65, by omega, .inl ⟨by omega, by omega⟩⟩
    · exact .inr ⟨d.toNat - 65, by omega, .inr ⟨by omega, by omega⟩⟩
  · rintro (heq | ⟨i, hi, ⟨hc, hd⟩ | ⟨hc, hd⟩⟩)
    · cases k <;> simp only [foldCase, toNat_toLower, toNat_toUpper, heq]
    all_goals
      cases k <;> simp only [foldCase, toNat_toLower, toNat_toUpper] <;>
        split <;> split <;> omega

namespace Identifier

variable {k : IdentifierKind}

/-- **The texts of one identifier are the spellings of one name.** -/
theorem of_eq_of_iff {s t : String} : of k s = of k t ↔ Text.SameName s t :=
  calc of k s = of k t
    _ ↔ k.canonical s = k.canonical t := ⟨congrArg text, fun h => ext_text h⟩
    _ ↔ (Text.trim s.toList).map k.foldCase = (Text.trim t.toList).map k.foldCase :=
      String.ofList_inj
    _ ↔ List.Forall₂ (fun c d => k.foldCase c = k.foldCase d) (Text.trim s.toList)
          (Text.trim t.toList) := by
      rw [← List.forall₂_eq_eq_eq, List.forall₂_map_left_iff, List.forall₂_map_right_iff]
    _ ↔ Text.SameName s t := by simp only [k.foldCase_eq_iff, Text.sameName_iff]

/-- Different identifiers are never spellings of one name. -/
theorem eq_iff_sameName {i j : Identifier k} : i = j ↔ Text.SameName i.text j.text := by
  rw [← of_eq_of_iff (k := k), of_text, of_text]

theorem isEmpty_iff {i : Identifier k} : i.isEmpty = true ↔ i.text = "" := String.isEmpty_iff

theorem isEmpty_eq_false_iff {i : Identifier k} : i.isEmpty = false ↔ i.text ≠ "" := by
  rw [← Bool.not_eq_true, isEmpty_iff]

/-- A text is accepted exactly if its identifier is not empty. -/
theorem parse_eq_ok_iff {s : String} {i : Identifier k} :
    parse k s = .ok i ↔ (of k s).text ≠ "" ∧ i = of k s := by
  rw [parse, ← isEmpty_eq_false_iff]
  cases (of k s).isEmpty with
  | false => simp [eq_comm]
  | true => simp

/-! ## 3. Identifiers read back -/

/-- An identifier that names something is read back from its text, the empty one is refused. -/
theorem ofJson?_ofText?_compact (i : Identifier k) :
    (Json.ofText? i.toJson.compact).bind (ofJson? k) = if i.text = "" then none else some i := by
  have htext : Json.ofText? i.toJson.compact = some i.toJson :=
    Json.ofText?_compact (.text i.text) (Nat.zero_le _)
  rw [htext, Option.bind_some]
  split
  · rename_i hempty
    cases hread : ofJson? k i.toJson with
    | none => rfl
    | some i' => exact absurd hempty (isEmpty_eq_false_iff.1 (isEmpty_of_ofJson? hread))
  · rename_i hne
    exact ofJson?_toJson (isEmpty_eq_false_iff.2 hne)

section Map

variable {α : Type} {write : α → Json} {read : Json → Option α} {m : SortedMap (Identifier k) α}

/-- The members of an object that are named by the keys of a map. -/
theorem asMembers?_entries (hkeys : ∀ i ∈ m.keys, i.isEmpty = false)
    (hvalues : ∀ a ∈ m.values, read (write a) = some a) :
    (Json.object (m.entries.map fun e => (e.1.text, write e.2))).asMembers? (ofText? k) read =
      some m.entries := by
  have hnodup : (m.entries.map fun e => e.1.text).Nodup :=
    List.pairwise_map.2 <| (List.pairwise_map.1 m.nodup_keys).imp fun hne htext =>
      hne (ext_text htext)
  refine Json.asMembers?_map hnodup (fun e he => ?_) fun e he => ?_
  · exact ofText?_text (hkeys e.1 (List.mem_map_of_mem he))
  · exact hvalues e.2 (List.mem_map_of_mem he)

/-- A map whose keys name something is read back from its text, with values that are. -/
theorem ofMembers?_ofText?_compact {d : Nat} (hkeys : ∀ i ∈ m.keys, i.text ≠ "")
    (hvalues : ∀ a ∈ m.values, Json.Readable d (write a) ∧ read (write a) = some a)
    (hdepth : d < Json.maxDepth) :
    ((Json.ofText? (Json.object (m.entries.map fun e => (e.1.text, write e.2))).compact).bind
      (Json.asMembers? (ofText? k) read)).map .ofList = some m := by
  have hreadable : Json.Readable (d + 1) (.object (m.entries.map fun e => (e.1.text, write e.2))) :=
    .object (List.forall_mem_map.2 fun e he => (hvalues e.2 (List.mem_map_of_mem he)).1)
  have hmembers := asMembers?_entries (fun i hi => isEmpty_eq_false_iff.2 (hkeys i hi))
    fun a ha => (hvalues a ha).2
  rw [Json.ofText?_compact hreadable hdepth, Option.bind_some, hmembers, Option.map_some,
    SortedMap.ofList_entries]

/-- No two keys of a map are spellings of one name. -/
theorem pairwise_keys (m : SortedMap (Identifier k) α) :
    m.keys.Pairwise fun i j => ¬ Text.SameName i.text j.text :=
  m.nodup_keys.imp fun hne hsame => hne (eq_iff_sameName.2 hsame)

end Map

/-! ## 4. One identifier for each name -/

/-- **Every name has one identifier, however it is spelled.**  For any two texts:

* the text of an identifier stands for that identifier;
* a text is accepted exactly if its identifier is not empty, and then as that identifier;
* an identifier that is not empty is read back from its text, the empty one is not;
* two texts have one identifier exactly if they spell the same name.

So the keys of a map are never two spellings of one name, and a map is read back with its keys. -/
theorem one_per_name (k : IdentifierKind) (s t : String) :
    of k (of k s).text = of k s ∧
    (∀ i, parse k s = .ok i ↔ (of k s).text ≠ "" ∧ i = of k s) ∧
    (Json.ofText? (of k s).toJson.compact).bind (ofJson? k) =
      (if (of k s).text = "" then none else some (of k s)) ∧
    (of k s = of k t ↔ Text.SameName s t) ∧
    ∀ {α : Type} (m : SortedMap (Identifier k) α),
      (m.keys.Pairwise fun i j => ¬ Text.SameName i.text j.text) ∧
      ∀ (write : α → Json) (read : Json → Option α) (d : Nat), d < Json.maxDepth →
        (∀ i ∈ m.keys, i.text ≠ "") →
        (∀ a ∈ m.values, Json.Readable d (write a) ∧ read (write a) = some a) →
        ((Json.ofText? (Json.object (m.entries.map fun e => (e.1.text, write e.2))).compact).bind
          (Json.asMembers? (ofText? k) read)).map .ofList = some m :=
  ⟨of_text _, fun _ => parse_eq_ok_iff, ofJson?_ofText?_compact _, of_eq_of_iff, fun m =>
    ⟨pairwise_keys m, fun _ _ _ hdepth hkeys hvalues =>
      ofMembers?_ofText?_compact hkeys hvalues hdepth⟩⟩

/-- An asset in two spellings has one entry, under its one name, and the map is read back. -/
theorem one_per_name_tether :
    let m : SortedMap AssetId String :=
      (SortedMap.empty.insert (of .asset " usdt\u00a0") "a").insert (of .asset "USDT") "b"
    of .asset " usdt\u00a0" = of .asset "USDT" ∧ m.keys.map text = ["USDT"] ∧
      ((Json.ofText? (Json.object (m.entries.map fun e => (e.1.text, Json.text e.2))).compact).bind
        (Json.asMembers? (ofText? .asset) Json.asText?)).map .ofList = some m := by
  intro m
  have h := one_per_name .asset " usdt\u00a0" "USDT"
  refine ⟨h.2.2.2.1.2 (by decide), by decide, ?_⟩
  exact (h.2.2.2.2 m).2 .text Json.asText? 0 (by decide) (by decide) fun a _ =>
    ⟨.text a, Json.asText?_text a⟩

end Identifier

end Reconciliation
