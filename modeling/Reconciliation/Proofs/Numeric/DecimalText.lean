/-
# Decimals read back from their text

A decimal is written with all of its places, so reading the text gives the same decimal, the
number of places included and not only the value.

* `readDigits_append`: digits that fit are read one after another;
* `ofText?_toText`: a decimal read back.
-/
import Reconciliation.Numeric.Decimal.Text
import Reconciliation.Proofs.Text.Digits

namespace Reconciliation
namespace Decimal

-- Powers are those of the core library, whatever other instances are in scope.
attribute [local instance (2000)] instPowNat

/-! ## 1. Reading digits -/

/-- The number that digits make of the number in front of them. -/
def extend (mantissa : Nat) (ds : List Char) : Nat :=
  ds.foldl (fun n c => n * 10 + Text.digitValue c) mantissa

theorem extend_zero (ds : List Char) : extend 0 ds = Text.digitsValue ds := rfl

theorem extend_append (mantissa : Nat) (ds ds' : List Char) :
    extend mantissa (ds ++ ds') = extend (extend mantissa ds) ds' := List.foldl_append

theorem le_extend (mantissa : Nat) (ds : List Char) : mantissa ≤ extend mantissa ds := by
  induction ds generalizing mantissa with
  | nil => exact Nat.le_refl _
  | cons c ds ih =>
    have := ih (mantissa * 10 + Text.digitValue c)
    show mantissa ≤ extend (mantissa * 10 + Text.digitValue c) ds
    omega

/-- Digits are read one after another, as long as the number and its places fit. -/
theorem readDigits_append {mantissa scale : Nat} {point started : Bool} {ds cs : List Char}
    (hds : ds.all Char.isDigit = true) (hfits : extend mantissa ds ≤ maxCoefficient)
    (hscale : point = true → scale + ds.length ≤ maxScale) :
    readDigits mantissa scale point started (ds ++ cs) =
      readDigits (extend mantissa ds) (if point then scale + ds.length else scale) point
        (started || !ds.isEmpty) cs := by
  induction ds generalizing mantissa scale started with
  | nil => simp [extend]
  | cons c ds ih =>
    obtain ⟨hc, hds⟩ : c.isDigit = true ∧ ds.all Char.isDigit = true := by simpa using hds
    have hnext : ¬ maxCoefficient < mantissa * 10 + Text.digitValue c := by
      have := le_extend (mantissa * 10 + Text.digitValue c) ds
      have : extend (mantissa * 10 + Text.digitValue c) ds ≤ maxCoefficient := hfits
      omega
    rw [List.cons_append, readDigits, if_pos hc]
    cases point with
    | false =>
      simp only [Bool.false_and, Bool.false_eq_true, if_false, hnext]
      rw [ih hds hfits (by simp)]
      simp [extend]
    | true =>
      have hroom : scale + (ds.length + 1) ≤ maxScale := hscale rfl
      have hplace : ¬ maxScale ≤ scale := by omega
      simp only [Bool.true_and, hplace, hnext, decide_false, Bool.or_self, Bool.false_eq_true,
        if_false, if_true]
      rw [ih hds hfits (by omega)]
      simp [extend, Nat.add_assoc, Nat.add_comm 1]

/-! ## 2. What was written -/

/-- The digits before the point. -/
def wholeChars (d : Decimal) : List Char :=
  let ds := Text.padded (d.scale + 1) d.coefficient.natAbs
  ds.take (ds.length - d.scale)

/-- The digits after the point. -/
def placeChars (d : Decimal) : List Char :=
  let ds := Text.padded (d.scale + 1) d.coefficient.natAbs
  ds.drop (ds.length - d.scale)

/-- Digits and point, without a sign. -/
def bodyChars (d : Decimal) : List Char :=
  if d.scale = 0 then d.wholeChars else d.wholeChars ++ '.' :: d.placeChars

theorem toChars_eq (d : Decimal) :
    d.toChars = if d.isNegative then '-' :: d.bodyChars else d.bodyChars := rfl

theorem wholeChars_append_placeChars (d : Decimal) :
    d.wholeChars ++ d.placeChars = Text.padded (d.scale + 1) d.coefficient.natAbs :=
  List.take_append_drop _ _

theorem length_placeChars (d : Decimal) : d.placeChars.length = d.scale := by
  have := Text.width_le_length_padded (d.scale + 1) d.coefficient.natAbs
  simp only [placeChars, List.length_drop]
  omega

theorem wholeChars_ne_nil (d : Decimal) : d.wholeChars ≠ [] := by
  have := Text.width_le_length_padded (d.scale + 1) d.coefficient.natAbs
  rw [← List.length_pos_iff]
  simp only [wholeChars, List.length_take]
  omega

theorem all_isDigit_wholeChars (d : Decimal) : d.wholeChars.all Char.isDigit = true :=
  List.all_eq_true.2 fun _ h => Text.isDigit_of_mem_padded (List.mem_of_mem_take h)

theorem all_isDigit_placeChars (d : Decimal) : d.placeChars.all Char.isDigit = true :=
  List.all_eq_true.2 fun _ h => Text.isDigit_of_mem_padded (List.mem_of_mem_drop h)

theorem extend_extend_chars (d : Decimal) :
    extend (extend 0 d.wholeChars) d.placeChars = d.coefficient.natAbs := by
  rw [← extend_append, wholeChars_append_placeChars, extend_zero, Text.digitsValue_padded]

theorem readDigits_bodyChars (d : Decimal) :
    readDigits 0 0 false false d.bodyChars = some (d.coefficient.natAbs, d.scale) := by
  have hvalue := d.extend_extend_chars
  have hplaces := d.length_placeChars
  have hfits : extend (extend 0 d.wholeChars) d.placeChars ≤ maxCoefficient :=
    hvalue ▸ d.coefficient_le
  have hwhole : extend 0 d.wholeChars ≤ maxCoefficient := Nat.le_trans (le_extend _ _) hfits
  have hstarted : (false || !d.wholeChars.isEmpty) = true := by
    simpa using d.wholeChars_ne_nil
  unfold bodyChars
  split
  · rename_i hscale
    have hnil : d.placeChars = [] := List.eq_nil_of_length_eq_zero (hplaces.trans hscale)
    rw [← List.append_nil d.wholeChars, readDigits_append d.all_isDigit_wholeChars hwhole (by simp),
      hstarted]
    rw [hnil] at hvalue
    simp only [readDigits, Bool.false_eq_true, if_true, if_false, hscale]
    exact congrArg (fun n => some (n, 0)) hvalue
  · rw [readDigits_append d.all_isDigit_wholeChars hwhole (by simp), hstarted]
    have hpoint : readDigits (extend 0 d.wholeChars) 0 false true ('.' :: d.placeChars) =
        readDigits (extend 0 d.wholeChars) 0 true true d.placeChars := by
      rw [readDigits, if_neg (by decide)]
      rfl
    have hread : readDigits (extend 0 d.wholeChars) 0 true true (d.placeChars ++ []) = _ :=
      readDigits_append d.all_isDigit_placeChars hfits fun _ => by
        rw [hplaces, Nat.zero_add]
        exact d.scale_le
    rw [if_neg (by decide), hpoint, ← List.append_nil d.placeChars, hread, hvalue, hplaces]
    simp [readDigits]

/-! ## 3. Reading back -/

theorem ofParts?_natAbs (d : Decimal) :
    ofParts? d.isNegative d.coefficient.natAbs d.scale = some d := by
  have hsign : (if d.isNegative then -(d.coefficient.natAbs : Int) else d.coefficient.natAbs) =
      d.coefficient := by
    by_cases h : d.coefficient < 0
    · simp only [isNegative, h, decide_true, if_true]
      omega
    · simp only [isNegative, h, decide_false, Bool.false_eq_true, if_false]
      omega
  unfold ofParts?
  rw [dif_pos ⟨d.coefficient_le, d.scale_le⟩]
  simp only [hsign]

theorem ofPlainChars?_toChars (d : Decimal) : ofPlainChars? d.toChars = some d := by
  have hparts := d.ofParts?_natAbs
  rw [toChars_eq]
  cases hnegative : d.isNegative with
  | true =>
    rw [hnegative] at hparts
    simp only [if_true, ofPlainChars?, readDigits_bodyChars, Option.bind_some, hparts]
  | false =>
    rw [hnegative] at hparts
    obtain ⟨c, rest, hbody, hc⟩ : ∃ c rest, d.bodyChars = c :: rest ∧ c.isDigit = true := by
      obtain ⟨c, rest, hwhole⟩ := List.exists_cons_of_ne_nil d.wholeChars_ne_nil
      have hall := d.all_isDigit_wholeChars
      rw [hwhole, List.all_cons, Bool.and_eq_true] at hall
      unfold bodyChars
      split
      · exact ⟨c, rest, hwhole, hall.1⟩
      · exact ⟨c, rest ++ '.' :: d.placeChars, by rw [hwhole, List.cons_append], hall.1⟩
    have hread := d.readDigits_bodyChars
    rw [hbody] at hread
    simp only [Bool.false_eq_true, if_false, hbody]
    unfold ofPlainChars?
    split
    · rename_i h
      cases h
      simp at hc
    · rename_i h
      cases h
      simp at hc
    · rw [hread]
      exact hparts

/-- **A decimal read back from its text is the same**, with the same places. -/
theorem ofText?_toText (d : Decimal) : ofText? d.toText = some d := by
  rw [ofText?, toText, String.toList_ofList, ofChars?, ofPlainChars?_toChars]
  rfl

end Decimal
end Reconciliation
