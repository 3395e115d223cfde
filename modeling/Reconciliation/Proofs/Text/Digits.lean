/-
# Digits read back

A number that is written with leading zeros has as many digits as were asked for, or as it needs,
and reading the digits gives the number again.  The same holds of hexadecimal digits.

* `digitsValue_padded`, `length_padded`, `isDigit_of_mem_padded`: what is written;
* `takeWhile_isDigit_append`: digits end where something else begins;
* `hexValue?_hexDigit`: a hexadecimal digit read back;
* `padded_append_lt`: of texts that begin with as many digits each, the numbers decide the order.
-/
import Reconciliation.Text.Digits

namespace Reconciliation
namespace Text

-- Powers are those of the core library, whatever other instances are in scope.
attribute [local instance (2000)] instPowNat

/-! ## 1. Decimal digits -/

theorem digitsValue_eq_ofDigitChars (ds : List Char) :
    digitsValue ds = Nat.ofDigitChars 10 ds 0 := by
  simp only [digitsValue, digitValue, Nat.ofDigitChars, Nat.mul_comm]

@[simp] theorem digitsValue_padded (width n : Nat) : digitsValue (padded width n) = n := by
  rw [digitsValue_eq_ofDigitChars, padded, Nat.ofDigitChars_append,
    Nat.ofDigitChars_replicate_zero, Nat.mul_zero, Nat.ofDigitChars_ten_toDigits]

theorem isDigit_of_mem_padded {width n : Nat} {c : Char} (h : c ∈ padded width n) :
    c.isDigit = true := by
  rcases List.mem_append.1 h with h | h
  · rw [List.eq_of_mem_replicate h]
    decide
  · exact Nat.isDigit_of_mem_toDigits (by decide) (by decide) h

theorem all_isDigit_padded (width n : Nat) : (padded width n).all Char.isDigit = true :=
  List.all_eq_true.2 fun _ h => isDigit_of_mem_padded h

theorem padded_ne_nil (width n : Nat) : padded width n ≠ [] := by
  simp [padded]

theorem width_le_length_padded (width n : Nat) : width ≤ (padded width n).length := by
  simp only [padded, List.length_append, List.length_replicate]
  omega

/-- A number that fits has exactly the digits that were asked for. -/
theorem length_padded {width n : Nat} (hwidth : 0 < width) (h : n < 10 ^ width) :
    (padded width n).length = width := by
  have := (Nat.length_toDigits_le_iff (b := 10) (by decide) hwidth).2 h
  simp only [padded, List.length_append, List.length_replicate]
  omega

/-! ## 2. Where digits end -/

/-- What may follow digits without being taken for one. -/
def EndsDigits (cs : List Char) : Prop := ∀ c ∈ cs.head?, c.isDigit = false

theorem endsDigits_nil : EndsDigits [] := fun _ h => nomatch h

theorem endsDigits_cons {c : Char} {cs : List Char} (h : c.isDigit = false) :
    EndsDigits (c :: cs) := by
  intro d hd
  cases hd
  exact h

theorem takeWhile_isDigit_append {ds cs : List Char} (hds : ds.all Char.isDigit = true)
    (hcs : EndsDigits cs) : (ds ++ cs).takeWhile Char.isDigit = ds := by
  have hstop : cs.takeWhile Char.isDigit = [] := by
    cases cs with
    | nil => rfl
    | cons c cs => rw [List.takeWhile_cons_of_neg (by simp [hcs c rfl])]
  rw [List.takeWhile_append_of_pos (fun d hd => List.all_eq_true.1 hds d hd), hstop,
    List.append_nil]

theorem dropWhile_isDigit_append {ds cs : List Char} (hds : ds.all Char.isDigit = true)
    (hcs : EndsDigits cs) : (ds ++ cs).dropWhile Char.isDigit = cs := by
  have hstop : cs.dropWhile Char.isDigit = cs := by
    cases cs with
    | nil => rfl
    | cons c cs => rw [List.dropWhile_cons_of_neg (by simp [hcs c rfl])]
  rw [List.dropWhile_append_of_pos (fun d hd => List.all_eq_true.1 hds d hd), hstop]

/-! ## 3. Hexadecimal digits -/

theorem hexValue?_hexDigit (n : Nat) : hexValue? (hexDigit n) = some (n % 16) := by
  have hall : ∀ d < 16, hexValue? ((Nat.toDigits 16 d).headD '0') = some d := by decide
  exact hall (n % 16) (Nat.mod_lt n (by decide))

/-! ## 4. The order of texts with digits -/

theorem digitsValue_append (ds ds' : List Char) :
    digitsValue (ds ++ ds') = digitsValue ds * 10 ^ ds'.length + digitsValue ds' := by
  simp only [digitsValue_eq_ofDigitChars]
  rw [Nat.ofDigitChars_append, Nat.ofDigitChars_eq_ofDigitChars_zero, Nat.mul_comm]

theorem toNat_of_isDigit {c : Char} (h : c.isDigit = true) : 48 ≤ c.toNat ∧ c.toNat ≤ 57 := by
  simpa [Char.isDigit, UInt32.le_iff_toNat_le] using h

theorem toNat_eq_digitValue {c : Char} (h : c.isDigit = true) : c.toNat = digitValue c + 48 := by
  have hrange := toNat_of_isDigit h
  show c.toNat = c.toNat - 48 + 48
  omega

theorem digitValue_le {c : Char} (h : c.isDigit = true) : digitValue c ≤ 9 := by
  have hrange := toNat_of_isDigit h
  have hvalue := toNat_eq_digitValue h
  omega

theorem lt_of_digitValue_lt {c d : Char} (hc : c.isDigit = true) (hd : d.isDigit = true)
    (h : digitValue c < digitValue d) : c < d := by
  have hlt : c.toNat < d.toNat := by
    rw [toNat_eq_digitValue hc, toNat_eq_digitValue hd]
    omega
  exact UInt32.lt_iff_toNat_lt.2 hlt

theorem eq_of_digitValue_eq {c d : Char} (hc : c.isDigit = true) (hd : d.isDigit = true)
    (h : digitValue c = digitValue d) : c = d := by
  have heq : c.toNat = d.toNat := by rw [toNat_eq_digitValue hc, toNat_eq_digitValue hd, h]
  exact Char.ext (UInt32.toNat_inj.1 heq)

theorem digitsValue_cons (c : Char) (ds : List Char) :
    digitsValue (c :: ds) = digitValue c * 10 ^ ds.length + digitsValue ds := by
  have happend := digitsValue_append [c] ds
  simpa [digitsValue] using happend

theorem digitsValue_lt {ds : List Char} (h : ds.all Char.isDigit = true) :
    digitsValue ds < 10 ^ ds.length := by
  induction ds with
  | nil => decide
  | cons c ds ih =>
    obtain ⟨hc, hds⟩ : c.isDigit = true ∧ ds.all Char.isDigit = true := by simpa using h
    have hlt := ih hds
    have hle := Nat.mul_le_mul_right (10 ^ ds.length) (digitValue_le hc)
    rw [digitsValue_cons, List.length_cons, Nat.pow_succ]
    omega

/-- As many digits of a smaller number come first, whatever follows them. -/
theorem append_lt_append_of_digitsValue_lt {ds ds' : List Char} (hds : ds.all Char.isDigit = true)
    (hds' : ds'.all Char.isDigit = true) (hlength : ds.length = ds'.length)
    (h : digitsValue ds < digitsValue ds') (cs cs' : List Char) : ds ++ cs < ds' ++ cs' := by
  induction ds generalizing ds' with
  | nil =>
    obtain rfl := List.length_eq_zero_iff.1 hlength.symm
    exact absurd h (Nat.lt_irrefl _)
  | cons c ds ih =>
    cases ds' with
    | nil => cases hlength
    | cons d ds' =>
      obtain ⟨hc, hds⟩ : c.isDigit = true ∧ ds.all Char.isDigit = true := by simpa using hds
      obtain ⟨hd, hds'⟩ : d.isDigit = true ∧ ds'.all Char.isDigit = true := by simpa using hds'
      have hlength : ds.length = ds'.length := Nat.succ.inj hlength
      rw [digitsValue_cons, digitsValue_cons, hlength] at h
      -- a greater first digit would outweigh all the others
      have hfirst : digitValue c ≤ digitValue d := by
        refine Nat.le_of_not_lt fun hgt => ?_
        have hmul := Nat.mul_le_mul_right (10 ^ ds'.length) (Nat.succ_le_of_lt hgt)
        have hlt := digitsValue_lt hds'
        rw [Nat.succ_mul] at hmul
        omega
      rw [List.cons_append, List.cons_append, List.cons_lt_cons_iff]
      rcases Nat.lt_or_eq_of_le hfirst with hlt | heq
      · exact .inl (lt_of_digitValue_lt hc hd hlt)
      · rw [heq] at h
        exact .inr ⟨eq_of_digitValue_eq hc hd heq, ih hds hds' hlength (by omega)⟩

/-- **Of texts that begin with as many digits each, the smaller number comes first.** -/
theorem padded_append_lt {width n m : Nat} {cs cs' : List Char} (hwidth : 0 < width)
    (hm : m < 10 ^ width) (h : n < m ∨ n = m ∧ cs < cs') :
    padded width n ++ cs < padded width m ++ cs' := by
  rcases h with hlt | ⟨rfl, hcs⟩
  · refine append_lt_append_of_digitsValue_lt (all_isDigit_padded ..) (all_isDigit_padded ..) ?_ ?_
      cs cs'
    · rw [length_padded hwidth (Nat.lt_trans hlt hm), length_padded hwidth hm]
    · rwa [digitsValue_padded, digitsValue_padded]
  · exact List.append_left_lt hcs

/-- As many digits of the same number are the same digits. -/
theorem eq_of_digitsValue_eq {ds ds' : List Char} (hds : ds.all Char.isDigit = true)
    (hds' : ds'.all Char.isDigit = true) (hlength : ds.length = ds'.length)
    (h : digitsValue ds = digitsValue ds') : ds = ds' := by
  induction ds generalizing ds' with
  | nil => exact (List.length_eq_zero_iff.1 hlength.symm).symm
  | cons c ds ih =>
    cases ds' with
    | nil => cases hlength
    | cons d ds' =>
      obtain ⟨hc, hds⟩ : c.isDigit = true ∧ ds.all Char.isDigit = true := by simpa using hds
      obtain ⟨hd, hds'⟩ : d.isDigit = true ∧ ds'.all Char.isDigit = true := by simpa using hds'
      have hlength : ds.length = ds'.length := Nat.succ.inj hlength
      rw [digitsValue_cons, digitsValue_cons, hlength] at h
      have hpos : 0 < 10 ^ ds'.length := Nat.pow_pos (by decide)
      have hlt : digitsValue ds < 10 ^ ds'.length := hlength ▸ digitsValue_lt hds
      have hlt' := digitsValue_lt hds'
      have hfirst : digitValue c = digitValue d := by
        have hquotient := congrArg (· / 10 ^ ds'.length) h
        simpa only [Nat.add_comm (_ * _), Nat.add_mul_div_right _ _ hpos, Nat.div_eq_of_lt hlt,
          Nat.div_eq_of_lt hlt', Nat.zero_add] using hquotient
      rw [hfirst] at h
      rw [eq_of_digitValue_eq hc hd hfirst, ih hds hds' hlength (by omega)]

/-- The digits of a number are those of its leading part and of the rest. -/
theorem padded_add {width width' n : Nat} (hwidth : 0 < width) (hwidth' : 0 < width')
    (h : n < 10 ^ (width + width')) :
    padded (width + width') n =
      padded width (n / 10 ^ width') ++ padded width' (n % 10 ^ width') := by
  have hpos : 0 < 10 ^ width' := Nat.pow_pos (by decide)
  have hlead : n / 10 ^ width' < 10 ^ width := by
    rw [Nat.div_lt_iff_lt_mul hpos, ← Nat.pow_add]
    exact h
  have hrest : n % 10 ^ width' < 10 ^ width' := Nat.mod_lt _ hpos
  refine eq_of_digitsValue_eq (all_isDigit_padded ..) ?_ ?_ ?_
  · rw [List.all_append, all_isDigit_padded, all_isDigit_padded]
    rfl
  · rw [List.length_append, length_padded (by omega) h, length_padded hwidth hlead,
      length_padded hwidth' hrest]
  · rw [digitsValue_append, digitsValue_padded, digitsValue_padded, digitsValue_padded,
      length_padded hwidth' hrest, Nat.mul_comm, Nat.div_add_mod]

end Text
end Reconciliation
