/-
# Numbers read back from JSON text

A number is one word, and a word of its own is a text of its own, so whether a number is read back
can be asked of its text alone.  A natural number of 64 bits always is.  Of a double this is not
shown here, since the reader scales digits by powers of ten that are rounded themselves.

* `ofText?_ofList`: the text of one word has the word's value;
* `isWord_nat`: the word of a natural number;
* `isWord_real`: the word of a double that is read back.
-/
import Reconciliation.Proofs.Json.Text

namespace Reconciliation
namespace Json

-- Powers are those of the core library, whatever other instances are in scope.
attribute [local instance (2000)] instPowNat

/-! ## 1. Words -/

/-- A text of one word has the word's value. -/
theorem ofText?_ofList {cs : List Char} (hne : cs ≠ []) (h : ∀ c ∈ cs, endsWord c = false) :
    ofText? (String.ofList cs) = ofWord? cs := by
  obtain ⟨c, cs, rfl⟩ := List.exists_cons_of_ne_nil hne
  have hstep : betweenStep [] c = ([], .word [c]) := by
    have hc := h c List.mem_cons_self
    simp only [endsWord, Bool.or_eq_false_iff] at hc
    have hmark : markOf? c = none := by simpa using hc.2
    simp only [betweenStep, hc.1.1, hc.1.2, hmark, Bool.false_eq_true, if_false]
  have hlex : lexFrom ([], .between) (c :: cs) =
      (ofWord? (c :: cs)).map fun j => [Token.scalar j] := by
    have hword : lexFrom ([], .word [c]) (cs ++ []) = lexFrom ([], .word (cs.reverse ++ [c])) [] :=
      lexFrom_word_chars fun d hd => h d (List.mem_cons_of_mem c hd)
    rw [List.append_nil] at hword
    rw [lexFrom_cons, lexStep, hstep, Option.bind_some, hword, lexFrom_nil, closeLex?]
    simp
  rw [ofText?, String.toList_ofList, ofChars?, ofChars?_eq_lexFrom, hlex]
  cases ofWord? (c :: cs) with
  | none => rfl
  | some j => rfl

/-- The word of a number has its value. -/
theorem ofWord?_of_number {cs : List Char} {n : Number}
    (h : (NumberText.ofChars? cs).bind (·.number?) = some n) : ofWord? cs = some (.number n) := by
  have hword : ∀ w : List Char, (NumberText.ofChars? w).bind (·.number?) = none → cs ≠ w := by
    rintro w hw rfl
    rw [hw] at h
    cases h
  rw [ofWord?, if_neg (hword _ (by decide)), if_neg (hword _ (by decide)),
    if_neg (hword _ (by decide)), h, Option.map_some]

theorem endsWord_eq_false_of_isDigit {c : Char} (h : c.isDigit = true) : endsWord c = false := by
  have hblank : isJsonBlank c = false := by
    simp only [isJsonBlank, Bool.or_eq_false_iff, beq_eq_false_iff_ne]
    refine ⟨⟨⟨?_, ?_⟩, ?_⟩, ?_⟩ <;> rintro rfl <;> exact absurd h (by decide)
  have hquote : (c == '"') = false := by
    rw [beq_eq_false_iff_ne]
    rintro rfl
    exact absurd h (by decide)
  have hmark : markOf? c = none := by
    unfold markOf?
    split <;> first | rfl | exact absurd h (by decide)
  rw [endsWord, hblank, hquote, hmark]
  rfl

/-! ## 2. Natural numbers -/

theorem toText_ofNat (n : Nat) : (Number.int n).toText.toList = Nat.toDigits 10 n := by
  show (String.ofList (Nat.toDigits 10 n)).toList = _
  exact String.toList_ofList

theorem all_isDigit_toDigits (n : Nat) : (Nat.toDigits 10 n).all Char.isDigit = true :=
  List.all_eq_true.2 fun _ h => Nat.isDigit_of_mem_toDigits (by decide) (by decide) h

theorem digitsValue_toDigits (n : Nat) : Text.digitsValue (Nat.toDigits 10 n) = n := by
  rw [Text.digitsValue_eq_ofDigitChars, Nat.ofDigitChars_ten_toDigits]

/-- Digits are written without a leading zero, unless they are the zero. -/
theorem head_toDigits_ne_zero {n : Nat} (h : 1 < (Nat.toDigits 10 n).length) :
    (Nat.toDigits 10 n).head? ≠ some '0' := by
  intro hhead
  obtain ⟨rest, hrest⟩ : ∃ rest, Nat.toDigits 10 n = '0' :: rest := by
    cases hds : Nat.toDigits 10 n with
    | nil => rw [hds] at hhead; cases hhead
    | cons c rest =>
      rw [hds] at hhead
      cases hhead
      exact ⟨rest, rfl⟩
  have hdigits := all_isDigit_toDigits n
  have hvalue := digitsValue_toDigits n
  rw [hrest] at h hdigits hvalue
  -- without the zero there would be a digit less
  have hlt : n < 10 ^ rest.length := by
    rw [← hvalue, Text.digitsValue_cons, show Text.digitValue '0' = 0 from rfl, Nat.zero_mul,
      Nat.zero_add]
    exact Text.digitsValue_lt (by simpa using hdigits)
  have hlength := (Nat.length_toDigits_le_iff (b := 10) (by decide)
    (show 0 < rest.length by simpa using h)).2 hlt
  rw [hrest, List.length_cons] at hlength
  omega

theorem numberText_toDigits (n : Nat) :
    NumberText.ofChars? (Nat.toDigits 10 n) = some ⟨false, Nat.toDigits 10 n, none, none⟩ := by
  have hds := all_isDigit_toDigits n
  have htake : takeDigits? (Nat.toDigits 10 n) = some (Nat.toDigits 10 n, []) := by
    have htakeWhile := Text.takeWhile_isDigit_append hds Text.endsDigits_nil
    have hdropWhile := Text.dropWhile_isDigit_append hds Text.endsDigits_nil
    rw [List.append_nil] at htakeWhile hdropWhile
    unfold takeDigits?
    rw [htakeWhile, hdropWhile]
    split
    · rename_i hnil
      exact absurd hnil Nat.toDigits_ne_nil
    · rfl
  have hzero : (decide (1 < (Nat.toDigits 10 n).length) &&
      (Nat.toDigits 10 n).head? == some '0') = false := by
    rw [Bool.and_eq_false_iff, decide_eq_false_iff_not, beq_eq_false_iff_ne]
    exact Decidable.not_or_of_imp head_toDigits_ne_zero
  unfold NumberText.ofChars?
  split
  rename_i negative cs hsplit
  split at hsplit
  · rename_i rest hsign
    -- no digit is a sign
    rw [hsign] at hds
    simp at hds
  · obtain ⟨rfl, rfl⟩ := Prod.mk.inj hsplit
    simp only [htake, Option.bind_eq_bind, Option.bind_some, hzero]
    rfl

theorem ofWord?_toDigits {n : Nat} (h : n < wordCount) :
    ofWord? (Nat.toDigits 10 n) = some (.number (.int n)) := by
  refine ofWord?_of_number ?_
  rw [numberText_toDigits, Option.bind_some]
  simp only [NumberText.number?, digitsValue_toDigits, Bool.false_eq_true, if_false, h, if_true]

/-- **A natural number of 64 bits is a word.** -/
theorem isWord_nat {n : Nat} (h : n < wordCount) :
    IsWord (Number.int n).toText.toList (.number (.int n)) := by
  rw [toText_ofNat]
  refine ⟨Nat.toDigits_ne_nil, fun c hc => ?_, ofWord?_toDigits h⟩
  exact endsWord_eq_false_of_isDigit (List.all_eq_true.1 (all_isDigit_toDigits n) c hc)

theorem asNat64?_ofNat {n : Nat} (h : n < wordCount) : (ofNat n).asNat64? = some n := by
  have hbound : 0 ≤ (n : Int) ∧ (n : Int) < wordCount :=
    ⟨Int.natCast_nonneg n, by exact_mod_cast h⟩
  rw [ofNat, asNat64?, asNatBelow?, if_pos hbound, Int.toNat_natCast]

theorem readable_ofNat {d n : Nat} (h : n < wordCount) : Readable d (ofNat n) :=
  .number (isWord_nat h)

/-! ## 3. Doubles -/

/-- The characters of a text are those of a number. -/
def IsNumeral (s : String) : Prop :=
  ∀ c ∈ s.toList, c.isDigit = true ∨ c = '.' ∨ c = '-' ∨ c = 'e'

theorem IsNumeral.append {s s' : String} (h : IsNumeral s) (h' : IsNumeral s') :
    IsNumeral (s ++ s') := by
  intro c hc
  rw [String.toList_append, List.mem_append] at hc
  exact hc.elim (h c) (h' c)

theorem isNumeral_ofList {ds : List Char} (h : ds.all Char.isDigit = true) :
    IsNumeral (String.ofList ds) := by
  intro c hc
  rw [String.toList_ofList] at hc
  exact .inl (List.all_eq_true.1 h c hc)

theorem isNumeral_int (n : Int) : IsNumeral (toString n) := by
  cases n with
  | ofNat n => exact isNumeral_ofList (all_isDigit_toDigits n)
  | negSucc n =>
    have hsign : IsNumeral "-" := by simp [IsNumeral]
    exact hsign.append (isNumeral_ofList (all_isDigit_toDigits (n + 1)))

theorem isNumeral_signText (x : Binary64) : IsNumeral x.signText := by
  unfold Binary64.signText
  split <;> simp [IsNumeral]

theorem all_isDigit_pointed {ds : List Char} (h : ds.all Char.isDigit = true) (point : Int) :
    (Binary64.pointed ds point).1.all Char.isDigit = true ∧
      (Binary64.pointed ds point).2.all Char.isDigit = true := by
  have hzeros : ∀ k, (List.replicate k '0').all Char.isDigit = true := fun k =>
    List.all_eq_true.2 fun c hc => by rw [List.eq_of_mem_replicate hc]; decide
  simp only [Binary64.pointed]
  split
  · exact ⟨rfl, by rw [List.all_append, hzeros, h]; rfl⟩
  split
  · exact ⟨by rw [List.all_append, hzeros, h]; rfl, rfl⟩
  · rw [List.all_eq_true] at h
    exact ⟨List.all_eq_true.2 fun c hc => h c (List.mem_of_mem_take hc),
      List.all_eq_true.2 fun c hc => h c (List.mem_of_mem_drop hc)⟩

theorem isNumeral_scientific (x : Binary64) : IsNumeral x.scientific := by
  have hsign := isNumeral_signText x
  have hdot : IsNumeral "." := by simp [IsNumeral]
  have hmark : IsNumeral "e" := by simp [IsNumeral]
  have hempty : IsNumeral "" := by simp [IsNumeral]
  have hzero : IsNumeral "0" := by simp [IsNumeral]
  have hds := all_isDigit_toDigits x.shortest.1
  unfold Binary64.scientific
  dsimp only
  split
  · exact hsign.append (by simp [IsNumeral])
  split
  · obtain ⟨hwhole, hplaces⟩ := all_isDigit_pointed hds _
    refine ((hsign.append (isNumeral_ofList hwhole)).append hdot).append ?_
    split
    · exact hzero
    · exact isNumeral_ofList hplaces
  · rw [List.all_eq_true] at hds
    have htake := isNumeral_ofList (List.all_eq_true.2 fun c hc =>
      hds c (List.mem_of_mem_take (i := 1) hc))
    have hdrop := isNumeral_ofList (List.all_eq_true.2 fun c hc =>
      hds c (List.mem_of_mem_drop (i := 1) hc))
    refine (((hsign.append htake).append ?_).append hmark).append
      (isNumeral_int _)
    split
    · exact hempty
    · exact hdot.append hdrop

theorem endsWord_eq_false_of_isNumeral {s : String} (h : IsNumeral s) :
    ∀ c ∈ s.toList, endsWord c = false := by
  intro c hc
  obtain hdigit | rfl | rfl | rfl := h c hc
  · exact endsWord_eq_false_of_isDigit hdigit
  all_goals simp [endsWord, isJsonBlank, markOf?]

/-- Whether a double is read back is a matter of its digits. -/
theorem ofText?_compact_ofReal {x : Binary64}
    (h : (NumberText.ofChars? x.scientific.toList).bind (·.number?) = some (.real x)) :
    ofText? (ofReal x).compact = some (ofReal x) := by
  have hunbroken := endsWord_eq_false_of_isNumeral (isNumeral_scientific x)
  have hne : x.scientific.toList ≠ [] := by
    intro hnil
    rw [hnil] at h
    cases h
  have hword := ofText?_ofList hne hunbroken
  rw [String.ofList_toList, ofWord?_of_number h] at hword
  exact hword

/-- **A double that its text is read back as is a word.** -/
theorem isWord_real {x : Binary64} (h : ofText? (ofReal x).compact = some (ofReal x)) :
    IsWord (Number.real x).toText.toList (.number (.real x)) := by
  have hunbroken := endsWord_eq_false_of_isNumeral (isNumeral_scientific x)
  have hne : x.scientific.toList ≠ [] := by
    intro hnil
    rw [show (ofReal x).compact = x.scientific from rfl, String.toList_eq_nil_iff.1 hnil] at h
    cases h
  refine ⟨hne, hunbroken, ?_⟩
  have hword := ofText?_ofList hne hunbroken
  rw [String.ofList_toList] at hword
  exact hword.symm.trans h

theorem readable_ofReal {d : Nat} {x : Binary64}
    (h : ofText? (ofReal x).compact = some (ofReal x)) : Readable d (ofReal x) :=
  .number (isWord_real h)

end Json
end Reconciliation
