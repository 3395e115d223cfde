/-
# Instants read back from their text

An instant is written to the nanosecond, a leap second as second 60, so its text tells it from
all others.  Records are read leniently and take any year; stored keys are read strictly, which
is why only four-digit years can be read back from them.

* `readNumber?_padded`, `readYear?_yearChars`, `readFraction?_fractionChars`: each part;
* `ofCivil?_date`: the parts of an instant make it up again;
* `ofText?_toZuluText`, `ofStrictText?_toOffsetText`: an instant read back;
* `yearInRange_of_ofText?`, `hasPlainYear_of_ofStrictText?`: no other is.
-/
import Reconciliation.Time.Rfc3339
import Reconciliation.Proofs.Text.Digits
import Reconciliation.Proofs.Time.Calendar

namespace Reconciliation

/-! ## 1. Blanks, numbers and marks -/

namespace Text

theorem isBlank_of_isDigit {c : Char} (h : c.isDigit = true) : isBlank c = false := by
  have hrange : 48 ≤ c.toNat ∧ c.toNat ≤ 57 := by
    simpa [Char.isDigit, UInt32.le_iff_toNat_le] using h
  simp only [isBlank, blankRanges, List.any_cons, List.any_nil, Bool.or_eq_false_iff,
    Bool.and_eq_false_iff, decide_eq_false_iff_not, and_true]
  omega

theorem trimStart_cons {c : Char} {cs : List Char} (h : isBlank c = false) :
    trimStart (c :: cs) = c :: cs := by
  simp [trimStart, h]

/-- Nothing is trimmed off in front of digits. -/
theorem trimStart_digits {ds cs : List Char} (hne : ds ≠ []) (hds : ds.all Char.isDigit = true) :
    trimStart (ds ++ cs) = ds ++ cs := by
  obtain ⟨d, ds, rfl⟩ := List.exists_cons_of_ne_nil hne
  rw [List.all_cons, Bool.and_eq_true] at hds
  exact trimStart_cons (isBlank_of_isDigit hds.1)

end Text

namespace Instant

-- Powers are those of the core library, whatever other instances are in scope.
attribute [local instance (2000)] instPowNat

/-- A number with as many digits as are read at most. -/
theorem readNumber?_padded {width n : Nat} (hwidth : 0 < width) (h : n < 10 ^ width)
    (cs : List Char) : readNumber? width (Text.padded width n ++ cs) = some (n, cs) := by
  have hne := Text.padded_ne_nil width n
  have hlength := Text.length_padded hwidth h
  have hdigits : (Text.padded width n).takeWhile Char.isDigit = Text.padded width n := by
    simpa using Text.takeWhile_isDigit_append (Text.all_isDigit_padded width n) Text.endsDigits_nil
  have htake : (Text.padded width n ++ cs).take width = Text.padded width n :=
    List.take_left' hlength
  have hdrop : (Text.padded width n ++ cs).drop width = cs := List.drop_left' hlength
  simp only [readNumber?, Text.trimStart_digits hne (Text.all_isDigit_padded width n), htake,
    hdigits, hne, if_false, hlength, hdrop, Text.digitsValue_padded]

theorem readMark?_cons {mark : Char} (h : Text.isBlank mark = false) (cs : List Char) :
    readMark? mark (mark :: cs) = some cs := by
  simp [readMark?, Text.trimStart_cons h]

/-! ## 2. Years and fractions -/

theorem readYear_unbounded_padded {width n : Nat} {cs : List Char} (hcs : Text.EndsDigits cs) :
    readYear?.unbounded (Text.padded width n ++ cs) = some (n, cs) := by
  have hds := Text.all_isDigit_padded width n
  obtain ⟨d, ds, hcons⟩ := List.exists_cons_of_ne_nil (Text.padded_ne_nil width n)
  have hvalue := Text.digitsValue_padded width n
  simp only [readYear?.unbounded, Text.takeWhile_isDigit_append hds hcs,
    Text.dropWhile_isDigit_append hds hcs]
  rw [hcons] at hvalue ⊢
  simp only [hvalue]

/-- A year, in front of the mark that follows it. -/
theorem readYear?_yearChars (y : Int) (cs : List Char) :
    readYear? (yearChars y ++ '-' :: cs) = some (y, '-' :: cs) := by
  have hmark : Text.EndsDigits ('-' :: cs) := Text.endsDigits_cons (by decide)
  unfold yearChars
  split
  · have hvalue : -(y.natAbs : Int) = y := by omega
    rw [List.cons_append, readYear?, Text.trimStart_cons (by decide)]
    simp only [readYear_unbounded_padded hmark, Option.map_some, hvalue]
  split
  · have hvalue : (y.natAbs : Int) = y := by omega
    rw [List.cons_append, readYear?, Text.trimStart_cons (by decide)]
    simp only [readYear_unbounded_padded hmark, Option.map_some, hvalue]
  · have hvalue : (y.natAbs : Int) = y := by omega
    have hnumber : readNumber? 4 (Text.padded 4 y.natAbs ++ '-' :: cs) =
        some (y.natAbs, '-' :: cs) := readNumber?_padded (by decide) (by omega) _
    have hds := Text.all_isDigit_padded 4 y.natAbs
    obtain ⟨d, ds, hcons⟩ := List.exists_cons_of_ne_nil (Text.padded_ne_nil 4 y.natAbs)
    rw [readYear?, Text.trimStart_digits (Text.padded_ne_nil 4 y.natAbs) hds]
    rw [hcons, List.all_cons, Bool.and_eq_true] at hds
    rw [hcons, List.cons_append] at hnumber ⊢
    split
    · rename_i h
      cases h
      simp at hds
    · rename_i h
      cases h
      simp at hds
    · simp only [hnumber, Option.map_some, hvalue]

theorem readFraction?_point {width n : Nat} {cs : List Char} (hwidth : 0 < width)
    (hle : width ≤ 9) (h : n < 10 ^ width) (hcs : Text.EndsDigits cs) :
    readFraction? ('.' :: Text.padded width n ++ cs) = some (n * 10 ^ (9 - width), cs) := by
  have hds := Text.all_isDigit_padded width n
  have hlength := Text.length_padded hwidth h
  have htake : (Text.padded width n).take 9 = Text.padded width n :=
    List.take_of_length_le (by omega)
  obtain ⟨d, ds, hcons⟩ := List.exists_cons_of_ne_nil (Text.padded_ne_nil width n)
  have hvalue := Text.digitsValue_padded width n
  simp only [readFraction?, List.cons_append, Text.takeWhile_isDigit_append hds hcs,
    Text.dropWhile_isDigit_append hds hcs]
  rw [hcons] at hvalue htake hlength ⊢
  simp only [htake, hvalue, hlength]

/-- The places of a second, in front of an offset. -/
theorem readFraction?_fractionChars {nanos : Nat} (h : nanos < 1000000000) {c : Char}
    {cs : List Char} (hdigit : c.isDigit = false) (hpoint : c ≠ '.') :
    readFraction? (fractionChars nanos ++ c :: cs) = some (nanos, c :: cs) := by
  have hcs : Text.EndsDigits (c :: cs) := Text.endsDigits_cons hdigit
  unfold fractionChars
  split
  · rename_i h0
    subst h0
    unfold readFraction?
    split
    · rename_i heq
      cases heq
      exact absurd rfl hpoint
    · rfl
  split
  · rw [readFraction?_point (by decide) (by decide) (by omega) hcs]
    have : nanos / 1000000 * 10 ^ (9 - 3) = nanos := by omega
    rw [this]
  split
  · rw [readFraction?_point (by decide) (by decide) (by omega) hcs]
    have : nanos / 1000 * 10 ^ (9 - 6) = nanos := by omega
    rw [this]
  · rw [readFraction?_point (by decide) (by decide) (by omega) hcs]
    simp

/-! ## 3. The parts of an instant -/

/-- Second 60 stands for a leap second, and for nothing else. -/
theorem second_of_leap (a : Instant) :
    a.secondOfDay.toNat % 60 + a.nanos / 1000000000 ≤ 60 ∧
    (a.secondOfDay.toNat % 60 + a.nanos / 1000000000) / 60 = a.nanos / 1000000000 := by
  have hleap := a.leap_at_end
  have hnanos := a.nanos_lt
  have hday : a.secondOfDay = a.seconds % 86400 := rfl
  omega

/-- Date and time of day make up the instant again. -/
theorem ofCivil?_date (a : Instant) (h : yearInRange a.date.year = true) :
    ofCivil? a.date (a.secondOfDay.toNat / 3600) (a.secondOfDay.toNat / 60 % 60)
      (a.secondOfDay.toNat % 60 + a.nanos / 1000000000) (a.nanos % 1000000000) 0 = some a := by
  obtain ⟨hsecond, hleap⟩ := a.second_of_leap
  have hdays : a.date.toDays = a.seconds / 86400 := CivilDate.toDays_ofDays _
  have hvalid : a.date.isValid = true := CivilDate.isValid_ofDays _
  have hday : a.secondOfDay = a.seconds % 86400 := rfl
  have hhour : a.secondOfDay.toNat / 3600 < 24 := by omega
  have hminute : a.secondOfDay.toNat / 60 % 60 < 60 := by omega
  have hseconds : a.date.toDays * 86400 + (a.secondOfDay.toNat / 3600 : Nat) * 3600 +
      (a.secondOfDay.toNat / 60 % 60 : Nat) * 60 +
      (a.secondOfDay.toNat % 60 + a.nanos / 1000000000 - a.nanos / 1000000000 : Nat) - 0 =
      a.seconds := by omega
  have hnanos : a.nanos / 1000000000 * 1000000000 + a.nanos % 1000000000 = a.nanos := by omega
  unfold ofCivil?
  simp only [hvalid, h, hhour, hminute, hsecond, decide_true, Bool.and_self, if_true, hleap,
    hseconds, hnanos]
  rw [dif_pos ⟨a.nanos_lt, a.leap_at_end⟩]

/-! ## 4. Reading back -/

/-- Every part of an instant in turn, in front of an offset that adds nothing. -/
theorem ofChars?_parts (a : Instant) {c : Char} {cs : List Char} (hdigit : c.isDigit = false)
    (hpoint : c ≠ '.') (hoffset : readOffset? (c :: cs) = some (0, [])) :
    ofChars? (a.localChars ++ c :: cs) =
      ofCivil? a.date (a.secondOfDay.toNat / 3600) (a.secondOfDay.toNat / 60 % 60)
        (a.secondOfDay.toNat % 60 + a.nanos / 1000000000) (a.nanos % 1000000000) 0 := by
  have hday : a.secondOfDay = a.seconds % 86400 := rfl
  have hvalid : a.date.isValid = true := CivilDate.isValid_ofDays _
  obtain ⟨hmonth, hdom⟩ := CivilDate.le_of_isValid hvalid
  have hsecond := a.second_of_leap.1
  simp only [localChars, List.append_assoc, List.cons_append, ofChars?, Option.bind_eq_bind,
    readYear?_yearChars, Option.bind_some]
  rw [readMark?_cons (by decide), Option.bind_some,
    readNumber?_padded (by decide) (by omega : a.date.month < 10 ^ 2), Option.bind_some,
    readMark?_cons (by decide), Option.bind_some,
    readNumber?_padded (by decide) (by omega : a.date.day < 10 ^ 2), Option.bind_some]
  simp only
  rw [readNumber?_padded (by decide) (by omega : a.secondOfDay.toNat / 3600 < 10 ^ 2),
    Option.bind_some, readMark?_cons (by decide), Option.bind_some,
    readNumber?_padded (by decide) (by omega : a.secondOfDay.toNat / 60 % 60 < 10 ^ 2),
    Option.bind_some, readMark?_cons (by decide), Option.bind_some,
    readNumber?_padded (by decide)
      (by omega : a.secondOfDay.toNat % 60 + a.nanos / 1000000000 < 10 ^ 2),
    Option.bind_some, readFraction?_fractionChars (by omega) hdigit hpoint, Option.bind_some,
    hoffset, Option.bind_some]
  simp only [Text.trimStart, List.dropWhile_nil, List.isEmpty_nil, if_true]

theorem ofChars?_localChars (a : Instant) (h : yearInRange a.date.year = true) {c : Char}
    {cs : List Char} (hdigit : c.isDigit = false) (hpoint : c ≠ '.')
    (hoffset : readOffset? (c :: cs) = some (0, [])) :
    ofChars? (a.localChars ++ c :: cs) = some a := by
  rw [a.ofChars?_parts hdigit hpoint hoffset, a.ofCivil?_date h]

/-- **An instant read back from a record is the same**, in any year that there is. -/
theorem ofText?_toZuluText (a : Instant) (h : yearInRange a.date.year = true) :
    ofText? a.toZuluText = some a := by
  rw [ofText?, toZuluText, String.toList_ofList]
  exact a.ofChars?_localChars h (by decide) (by decide) (by rfl)

/-- An instant in any other year is not read back. -/
theorem yearInRange_of_ofText? {a a' : Instant} (h : ofText? a.toZuluText = some a') :
    yearInRange a.date.year = true := by
  rw [ofText?, toZuluText, String.toList_ofList,
    a.ofChars?_parts (by decide) (by decide) (by rfl)] at h
  cases hyear : yearInRange a.date.year with
  | true => rfl
  | false => simp [ofCivil?, hyear] at h

/-- The year has four digits and no sign. -/
def HasPlainYear (a : Instant) : Prop := 0 ≤ a.date.year ∧ a.date.year ≤ 9999

theorem HasPlainYear.yearInRange {a : Instant} (h : a.HasPlainYear) :
    yearInRange a.date.year = true := by
  obtain ⟨hlow, hhigh⟩ := h
  simp only [Instant.yearInRange, Bool.and_eq_true, decide_eq_true_eq]
  omega

theorem HasPlainYear.max {a b : Instant} (ha : a.HasPlainYear) (hb : b.HasPlainYear) :
    (a.max b).HasPlainYear := by
  unfold Instant.max
  split
  · exact ha
  · exact hb

theorem yearChars_of_hasPlainYear {a : Instant} (h : a.HasPlainYear) :
    yearChars a.date.year = Text.padded 4 a.date.year.natAbs := by
  obtain ⟨hlow, hhigh⟩ := h
  rw [yearChars, if_neg (by omega), if_neg (by omega)]

/-- The four digits of a plain year are all the digits that the text begins with. -/
theorem length_takeWhile_localChars {a : Instant} (h : a.HasPlainYear) (cs : List Char) :
    ((a.localChars ++ cs).takeWhile Char.isDigit).length = 4 := by
  simp only [localChars, yearChars_of_hasPlainYear h, List.append_assoc, List.cons_append]
  rw [Text.takeWhile_isDigit_append (Text.all_isDigit_padded _ _)
    (Text.endsDigits_cons (by decide))]
  obtain ⟨hlow, hhigh⟩ := h
  exact Text.length_padded (by decide) (by omega)

/-- The text of any other year begins with a sign. -/
theorem hasPlainYear_of_length_takeWhile {a : Instant} {cs : List Char}
    (h : ((a.localChars ++ cs).takeWhile Char.isDigit).length = 4) : a.HasPlainYear := by
  simp only [localChars, yearChars] at h
  by_cases hlow : a.date.year < 0
  · rw [if_pos hlow] at h
    cases h
  by_cases hhigh : 9999 < a.date.year
  · rw [if_neg hlow, if_pos hhigh] at h
    cases h
  exact ⟨by omega, by omega⟩

/-- **An instant read back from a stored key is the same**, if its year has four digits. -/
theorem ofStrictText?_toOffsetText {a : Instant} (h : a.HasPlainYear) :
    ofStrictText? a.toOffsetText = some a := by
  simp only [ofStrictText?, toOffsetText, String.toList_ofList, length_takeWhile_localChars h,
    if_true]
  exact a.ofChars?_localChars h.yearInRange (by decide) (by decide) (by rfl)

/-- No other instant is. -/
theorem hasPlainYear_of_ofStrictText? {a a' : Instant}
    (h : ofStrictText? a.toOffsetText = some a') : a.HasPlainYear := by
  rw [ofStrictText?, toOffsetText, String.toList_ofList] at h
  by_cases hlength : ((a.localChars ++ "+00:00".toList).takeWhile Char.isDigit).length = 4
  · exact hasPlainYear_of_length_takeWhile hlength
  · simp only [if_neg hlength] at h
    cases h

end Instant
end Reconciliation
