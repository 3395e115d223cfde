/-
# Instants in the order of their texts

Stored times are compared as text.  Every part of an instant is written with a fixed number of
digits, the largest part first, so the first part that differs decides, as it should.  Only the
places of a second vary in number: what follows them comes before every digit, and before the
point, so that a fraction that ends earlier comes first.

* `fractionChars_append_lt`: the order of fractions, in front of a sign;
* `toOffsetText_lt_iff`, `toOffsetText_le_iff`: text order is the order of instants.
-/
import Reconciliation.Proofs.Time.Rfc3339

namespace Reconciliation
namespace Instant

-- Powers are those of the core library, whatever other instances are in scope.
attribute [local instance (2000)] instPowNat

/-! ## 1. Fractions -/

theorem plus_lt_padded (width n : Nat) (cs cs' : List Char) :
    '+' :: cs < Text.padded width n ++ cs' := by
  obtain ⟨d, ds, hcons⟩ := List.exists_cons_of_ne_nil (Text.padded_ne_nil width n)
  have hd : d.isDigit = true := Text.isDigit_of_mem_padded (hcons ▸ List.mem_cons_self)
  rw [hcons, List.cons_append, List.cons_lt_cons_iff]
  have hrange := Text.toNat_of_isDigit hd
  exact .inl (UInt32.lt_iff_toNat_lt.2 (show 43 < d.toNat by omega))

/-- The places of a fraction in two parts, of which the second may be missing. -/
theorem padded_append_lt_of_le {width k n m : Nat} {cs cs' : List Char} (hwidth : 0 < width)
    (hk : 0 < k) (hm : m < 10 ^ (width + k)) (h : n ≤ m / 10 ^ k) :
    Text.padded width n ++ '+' :: cs < Text.padded (width + k) m ++ cs' := by
  have hlead : m / 10 ^ k < 10 ^ width := by
    rw [Nat.div_lt_iff_lt_mul (Nat.pow_pos (by decide)), ← Nat.pow_add]
    exact hm
  rw [Text.padded_add hwidth hk hm, List.append_assoc]
  refine Text.padded_append_lt hwidth hlead ?_
  rcases Nat.lt_or_eq_of_le h with hlt | rfl
  · exact .inl hlt
  · exact .inr ⟨rfl, plus_lt_padded ..⟩

theorem padded_append_lt_of_lt {width k n m : Nat} {cs cs' : List Char} (hwidth : 0 < width)
    (hk : 0 < k) (hn : n < 10 ^ (width + k)) (hm : m < 10 ^ width)
    (h : n / 10 ^ k < m) :
    Text.padded (width + k) n ++ cs < Text.padded width m ++ cs' := by
  rw [Text.padded_add hwidth hk hn, List.append_assoc]
  exact Text.padded_append_lt hwidth hm (.inl h)

/-- A fraction is written with 3, 6 or 9 places, and nothing is lost. -/
theorem fractionChars_cases {n : Nat} (h : n ≠ 0) :
    (fractionChars n = '.' :: Text.padded 3 (n / 1000000) ∧ n % 1000000 = 0) ∨
      (fractionChars n = '.' :: Text.padded 6 (n / 1000) ∧ n % 1000 = 0) ∨
      fractionChars n = '.' :: Text.padded 9 n := by
  unfold fractionChars
  rw [if_neg h]
  split
  · rename_i hmillis
    exact .inl ⟨rfl, hmillis⟩
  split
  · rename_i hmicros
    exact .inr (.inl ⟨rfl, hmicros⟩)
  · exact .inr (.inr rfl)

/-- **A smaller fraction comes first**, whatever the numbers of places. -/
theorem fractionChars_append_lt {n m : Nat} (hm : m < 1000000000) (h : n < m)
    (cs cs' : List Char) :
    fractionChars n ++ '+' :: cs < fractionChars m ++ '+' :: cs' := by
  rcases fractionChars_cases (show m ≠ 0 by omega) with ⟨hm', hm0⟩ | ⟨hm', hm0⟩ | hm' <;>
    rw [hm', List.cons_append]
  all_goals
    by_cases hn : n = 0
    · subst hn
      exact List.cons_lt_cons_iff.2 (.inl (by decide))
    rcases fractionChars_cases hn with ⟨hn', hn0⟩ | ⟨hn', hn0⟩ | hn' <;>
      rw [hn', List.cons_append, List.cons_lt_cons_self]
  · exact Text.padded_append_lt (by decide) (by omega) (.inl (by omega))
  · exact padded_append_lt_of_lt (k := 3) (by decide) (by decide) (by omega) (by omega) (by omega)
  · exact padded_append_lt_of_lt (k := 6) (by decide) (by decide) (by omega) (by omega) (by omega)
  · exact padded_append_lt_of_le (k := 3) (by decide) (by decide) (by omega) (by omega)
  · exact Text.padded_append_lt (by decide) (by omega) (.inl (by omega))
  · exact padded_append_lt_of_lt (k := 3) (by decide) (by decide) (by omega) (by omega) (by omega)
  · exact padded_append_lt_of_le (k := 6) (by decide) (by decide) (by omega) (by omega)
  · exact padded_append_lt_of_le (k := 3) (by decide) (by decide) (by omega) (by omega)
  · exact Text.padded_append_lt (by decide) (by omega) (.inl (by omega))

/-! ## 2. Instants -/

/-- The parts of an earlier instant: the first that differs is smaller. -/
theorem parts_lt {a b : Instant} (h : a < b) :
    a.date.year < b.date.year ∨ a.date.year = b.date.year ∧
    (a.date.month < b.date.month ∨ a.date.month = b.date.month ∧
    (a.date.day < b.date.day ∨ a.date.day = b.date.day ∧
    (a.secondOfDay.toNat / 3600 < b.secondOfDay.toNat / 3600 ∨
      a.secondOfDay.toNat / 3600 = b.secondOfDay.toNat / 3600 ∧
    (a.secondOfDay.toNat / 60 % 60 < b.secondOfDay.toNat / 60 % 60 ∨
      a.secondOfDay.toNat / 60 % 60 = b.secondOfDay.toNat / 60 % 60 ∧
    (a.secondOfDay.toNat % 60 + a.nanos / 1000000000 <
        b.secondOfDay.toNat % 60 + b.nanos / 1000000000 ∨
      a.secondOfDay.toNat % 60 + a.nanos / 1000000000 =
        b.secondOfDay.toNat % 60 + b.nanos / 1000000000 ∧
    a.nanos % 1000000000 < b.nanos % 1000000000))))) := by
  have hdate : a.date.Before b.date ∨ a.date = b.date ∧ a.seconds / 86400 = b.seconds / 86400 := by
    rcases Int.lt_or_eq_of_le (show a.seconds / 86400 ≤ b.seconds / 86400 by
      rw [lt_def] at h; omega) with hlt | heq
    · exact .inl (CivilDate.before_ofDays hlt)
    · exact .inr ⟨congrArg CivilDate.ofDays heq, heq⟩
  rcases hdate with hbefore | ⟨hdate, hday⟩
  · unfold CivilDate.Before at hbefore
    omega
  · rw [hdate]
    have hleap := a.leap_at_end
    have hsecond : a.secondOfDay = a.seconds % 86400 := rfl
    have hsecond' : b.secondOfDay = b.seconds % 86400 := rfl
    rw [lt_def] at h
    omega

/-- An earlier instant has the earlier text. -/
theorem toOffsetText_lt {a b : Instant} (ha : a.HasPlainYear) (hb : b.HasPlainYear) (h : a < b) :
    a.toOffsetText < b.toOffsetText := by
  obtain ⟨hmonth, hday⟩ := CivilDate.le_of_isValid (CivilDate.isValid_ofDays (b.seconds / 86400))
  have hsecond : b.secondOfDay = b.seconds % 86400 := rfl
  have hleap := b.second_of_leap.1
  have hyears : 0 ≤ a.date.year ∧ b.date.year ≤ 9999 := ⟨ha.1, hb.2⟩
  have hparts := parts_lt h
  rw [String.lt_iff]
  simp only [toOffsetText, String.toList_ofList, localChars, yearChars_of_hasPlainYear ha,
    yearChars_of_hasPlainYear hb, List.append_assoc, List.cons_append]
  -- part by part: the digits decide, or they are the same and the next part does
  refine Text.padded_append_lt (by decide) (by omega) (hparts.imp (by omega) fun hparts =>
    ⟨by omega, List.cons_lt_cons_self.2 ?_⟩)
  refine Text.padded_append_lt (by decide) (Nat.lt_of_le_of_lt hmonth (by decide))
    (hparts.2.imp_right fun hparts => ⟨hparts.1, List.cons_lt_cons_self.2 ?_⟩)
  refine Text.padded_append_lt (by decide) (Nat.lt_of_le_of_lt hday (by decide))
    (hparts.2.imp_right fun hparts => ⟨hparts.1, List.cons_lt_cons_self.2 ?_⟩)
  refine Text.padded_append_lt (by decide) (by omega)
    (hparts.2.imp_right fun hparts => ⟨hparts.1, List.cons_lt_cons_self.2 ?_⟩)
  refine Text.padded_append_lt (by decide) (by omega)
    (hparts.2.imp_right fun hparts => ⟨hparts.1, List.cons_lt_cons_self.2 ?_⟩)
  refine Text.padded_append_lt (by decide) (by omega)
    (hparts.2.imp_right fun hparts => ⟨hparts.1, ?_⟩)
  exact fractionChars_append_lt (Nat.mod_lt _ (by decide)) hparts.2 _ _

/-- **Text order is the order of instants**, if their years have four digits. -/
theorem toOffsetText_lt_iff {a b : Instant} (ha : a.HasPlainYear) (hb : b.HasPlainYear) :
    a.toOffsetText < b.toOffsetText ↔ a < b := by
  refine ⟨fun h => ?_, toOffsetText_lt ha hb⟩
  by_cases hab : a < b
  · exact hab
  have hle : b ≤ a := le_iff_not_lt.2 hab
  by_cases hba : b < a
  · exact absurd (toOffsetText_lt hb ha hba) (String.lt_asymm h)
  · rw [le_antisymm hle (le_iff_not_lt.2 hba)] at h
    exact absurd h (String.lt_irrefl _)

theorem toOffsetText_le_iff {a b : Instant} (ha : a.HasPlainYear) (hb : b.HasPlainYear) :
    a.toOffsetText ≤ b.toOffsetText ↔ a ≤ b := by
  rw [← String.not_lt, toOffsetText_lt_iff hb ha, le_iff_not_lt]

end Instant
end Reconciliation
