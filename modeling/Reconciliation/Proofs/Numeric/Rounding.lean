/-
# Rounding keeps the order

The result of an operation on decimals is the exact one, rounded to as many places as there is
room for.  How many places that is depends on the result, so two exact results that are close to
each other may be rounded to different grids, and neither need be rounded to the decimal nearest
to it.  Even so a larger exact result never gives a smaller decimal: where the grid changes, the
finer one ends in a five, and the coarser one goes on above it.

* `IsNearest`: the nearest integer, which is monotone;
* `RoundedTo`: a decimal is an exact result, rounded to as many places as there is room for;
* `Rounds.value_le`: rounding is monotone, across all grids;
* `Rounds.value_le_iff`: so it changes a comparison only where it makes both sides the same;
* `Rounds.value_eq_iff`: what a decimal can hold is not rounded;
* `rounds_add`, `rounds_sub`, `rounds_mul`, `rounds_div`: a result is the exact one, rounded;
* `sumOf_add`: how much of a sum is lost.
-/
import Reconciliation.Proofs.Numeric.Overflow

namespace Reconciliation

/-! ## 1. The nearest integer -/

/-- `IsNearest x n`: no integer is nearer to `x` than `n`, which is even if another is as near. -/
structure IsNearest (x : Rat) (n : Nat) : Prop where
  above : 2 * x ≤ 2 * n + 1
  below : 2 * n ≤ 2 * x + 1
  even : 2 * x = 2 * n + 1 ∨ 2 * n = 2 * x + 1 → n % 2 = 0

theorem isNearest_self (n : Nat) : IsNearest n n where
  above := by linarith
  below := by linarith
  even h := by rcases h with h | h <;> linarith

theorem isNearest_zero {x : Rat} (hx : 0 ≤ x) (h : 2 * x ≤ 1) : IsNearest x 0 where
  above := by
    rw [Nat.cast_zero]
    linarith
  below := by
    rw [Nat.cast_zero]
    linarith
  even _ := rfl

/-- If the order were turned round, both numbers would lie half-way between the two integers, and
one integer would be odd. -/
theorem IsNearest.mono {x y : Rat} {m n : Nat} (hm : IsNearest x m) (hn : IsNearest y n)
    (h : x ≤ y) : m ≤ n := by
  have hbelow := hm.below
  have habove := hn.above
  by_contra hlt
  have hstep : (n : Rat) + 1 ≤ m := by exact_mod_cast Nat.lt_of_not_le hlt
  have hx : 2 * (m : Rat) = 2 * x + 1 := by linarith
  have hy : 2 * y = 2 * (n : Rat) + 1 := by linarith
  have hnext : m = n + 1 := by
    have : (m : Rat) = n + 1 := by linarith
    exact_mod_cast this
  have hmeven := hm.even (.inr hx)
  have hneven := hn.even (.inl hy)
  omega

/-- Half a unit goes to the even neighbour. -/
theorem roundHalfEven_even {num den : Nat} (hden : 0 < den)
    (h : 2 * num = 2 * (roundHalfEven num den * den) + den ∨
      2 * (roundHalfEven num den * den) = 2 * num + den) : roundHalfEven num den % 2 = 0 := by
  have hnum : den * (num / den) + num % den = num := Nat.div_add_mod num den
  have hrest : num % den < den := Nat.mod_lt _ hden
  simp only [roundHalfEven] at h ⊢
  generalize num / den = q at *
  generalize num % den = r at *
  have hcomm : q * den = den * q := Nat.mul_comm q den
  split at h
  · rename_i hlow
    omega
  · split at h
    · rename_i hlow hhigh
      have hsucc : (q + 1) * den = den * q + den := by rw [Nat.add_mul, Nat.one_mul, hcomm]
      omega
    · rename_i hlow hhigh
      rw [if_neg hlow, if_neg hhigh]
      omega

theorem isNearest_roundHalfEven (num : Nat) {den : Nat} (hden : 0 < den) :
    IsNearest ((num : Rat) / den) (roundHalfEven num den) := by
  have hpos : (0 : Rat) < den := by exact_mod_cast hden
  have hquotient : (num : Rat) / den * den = num := div_mul_cancel₀ _ (ne_of_gt hpos)
  have hscale : ∀ {a b : Rat}, a * den ≤ b * den → a ≤ b := fun h => le_of_mul_le_mul_right h hpos
  refine ⟨hscale ?_, hscale ?_, fun htie => roundHalfEven_even hden ?_⟩
  · have h : (2 * num : Rat) ≤ 2 * (roundHalfEven num den * den) + den := by
      exact_mod_cast le_two_mul_roundHalfEven num den hden
    rw [mul_assoc, hquotient, add_mul, one_mul, mul_assoc]
    exact h
  · have h : (2 * (roundHalfEven num den * den) : Rat) ≤ 2 * num + den := by
      exact_mod_cast two_mul_roundHalfEven_le num den hden
    rw [add_mul, one_mul, mul_assoc, mul_assoc, hquotient]
    exact h
  · have hmul : ∀ {a b : Rat}, a = b → a * den = b * den := fun h => congrArg (· * (den : Rat)) h
    refine htie.imp (fun h => ?_) fun h => ?_
    · have h := hmul h
      rw [mul_assoc, hquotient, add_mul, one_mul, mul_assoc] at h
      exact_mod_cast h
    · have h := hmul h
      rw [add_mul, one_mul, mul_assoc, mul_assoc, hquotient] at h
      exact_mod_cast h

namespace Decimal

-- Powers are those of the core library, whatever other instances are in scope.
attribute [local instance (2000)] instPowNat

variable {q r : Rat} {a b d : Decimal}

/-! ## 2. Rounding to a decimal -/

theorem abs_value (d : Decimal) :
    |d.value| = (d.coefficient.natAbs : Rat) / (10 ^ d.scale : Nat) := by
  rw [value, abs_div, abs_of_pos d.pow_scale_pos, ← Int.cast_abs, Int.abs_eq_natAbs,
    Int.cast_natCast]

/-- `RoundedTo q d`: the decimal is nearest to `q` among those with as many places, and with one
more there is no room for `q`. -/
structure RoundedTo (q : Rat) (d : Decimal) : Prop where
  nearest : IsNearest (|q| * (10 ^ d.scale : Nat)) d.coefficient.natAbs
  sign : 0 ≤ q * d.value
  full : d.value = q ∨ d.scale = maxScale ∨ ¬ Fits (q * (10 ^ (d.scale + 1) : Nat))

/-- `Rounds q d`: the decimal has the value that `q` is rounded to.  Its places may be fewer. -/
def Rounds (q : Rat) (d : Decimal) : Prop := ∃ d', d'.value = d.value ∧ RoundedTo q d'

theorem pow_pos_cast (s : Nat) : (0 : Rat) < (10 ^ s : Nat) := by
  exact_mod_cast Nat.pow_pos (by decide)

/-- A value with few places is one with more. -/
theorem coefficient_mul_pow {s : Nat} (h : d.scale ≤ s) :
    |d.value| * (10 ^ s : Nat) = ((d.coefficient.natAbs * 10 ^ (s - d.scale) : Nat) : Rat) := by
  have hpow : (10 ^ s : Nat) = 10 ^ (s - d.scale) * 10 ^ d.scale := (Nat.pow_sub_mul_pow 10 h).symm
  rw [abs_value, hpow, Nat.cast_mul, Nat.cast_mul, div_mul_eq_mul_div, ← mul_assoc,
    mul_div_cancel_right₀ _ (ne_of_gt (pow_pos_cast _))]

/-- What can be rounded to an integer of 96 bits has room. -/
theorem IsNearest.fits {x : Rat} {n : Nat} (h : IsNearest |x| n) (hn : n ≤ maxCoefficient) :
    Fits x := by
  have habove := h.above
  have hmax : (n : Rat) ≤ maxCoefficient := by exact_mod_cast hn
  unfold Fits
  by_contra hge
  have heq : 2 * |x| = 2 * (n : Rat) + 1 := by linarith
  have hlast : n = maxCoefficient := by
    have : (n : Rat) = maxCoefficient := by linarith
    exact_mod_cast this
  have heven := h.even (.inl heq)
  rw [hlast] at heven
  exact absurd heven (by decide)

namespace RoundedTo

/-- An exact result is nearest to itself, with any more places. -/
theorem nearest_of_exact (h : d.value = q) {s : Nat} (hs : d.scale ≤ s) :
    IsNearest (|q| * (10 ^ s : Nat)) (d.coefficient.natAbs * 10 ^ (s - d.scale)) := by
  rw [← h, coefficient_mul_pow hs]
  exact isNearest_self _

/-- Where there is no room for one more place, the decimal is at least the largest with one more:
its last digit is a five, and the rest of it is rounded up. -/
theorem max_le_of_not_fits (h : RoundedTo q d) (hfull : ¬ Fits (q * (10 ^ (d.scale + 1) : Nat))) :
    maxCoefficient ≤ d.coefficient.natAbs * 10 := by
  have habove := h.nearest.above
  have hlarge : (2 * maxCoefficient + 1 : Rat) ≤ 2 * (|q| * (10 ^ (d.scale + 1) : Nat)) := by
    rw [Fits, not_lt, abs_mul, abs_of_pos (pow_pos_cast _)] at hfull
    exact hfull
  rw [Nat.pow_succ, Nat.cast_mul, ← mul_assoc |q|] at hlarge
  have hten : (2 * maxCoefficient + 1 : Rat) ≤ (2 * d.coefficient.natAbs + 1) * (10 : Nat) := by
    have hmul := mul_le_mul_of_nonneg_right habove (by norm_num : (0 : Rat) ≤ (10 : Nat))
    linarith
  have hbound : 2 * maxCoefficient + 1 ≤ (2 * d.coefficient.natAbs + 1) * 10 := by
    exact_mod_cast hten
  unfold maxCoefficient at hbound ⊢
  omega

/-- **Rounding keeps the order of magnitudes.** -/
theorem abs_value_le (ha : RoundedTo q a) (hb : RoundedTo r b) (h : |q| ≤ |r|) :
    |a.value| ≤ |b.value| := by
  have hat : ∀ s : Nat, |q| * (10 ^ s : Nat) ≤ |r| * (10 ^ s : Nat) := fun s =>
    mul_le_mul_of_nonneg_right h (le_of_lt (pow_pos_cast s))
  -- it is enough to compare the coefficients with one number of places
  have hcommon : ∀ s, a.scale ≤ s → b.scale ≤ s →
      a.coefficient.natAbs * 10 ^ (s - a.scale) ≤ b.coefficient.natAbs * 10 ^ (s - b.scale) →
        |a.value| ≤ |b.value| := by
    intro s has hbs hle
    refine le_of_mul_le_mul_right ?_ (pow_pos_cast s)
    rw [coefficient_mul_pow has, coefficient_mul_pow hbs]
    exact_mod_cast hle
  rcases Nat.lt_trichotomy a.scale b.scale with hlt | heq | hgt
  · refine hcommon b.scale (Nat.le_of_lt hlt) (Nat.le_refl _) ?_
    rw [Nat.sub_self, Nat.pow_zero, Nat.mul_one]
    rcases ha.full with hexact | hlast | hfull
    · exact (nearest_of_exact hexact (Nat.le_of_lt hlt)).mono hb.nearest (hat _)
    · have := b.scale_le
      omega
    · -- there is no room for `q` with one place more, but for `r` with as many as `b` has
      refine absurd ?_ hfull
      have hfits : Fits (r * (10 ^ b.scale : Nat)) := by
        refine IsNearest.fits ?_ b.coefficient_le
        rw [abs_mul, abs_of_pos (pow_pos_cast _)]
        exact hb.nearest
      have hpow : ((10 ^ (a.scale + 1) : Nat) : Rat) ≤ (10 ^ b.scale : Nat) := by
        exact_mod_cast Nat.pow_le_pow_right (by decide) hlt
      have hle : |q| * (10 ^ (a.scale + 1) : Nat) ≤ |r| * (10 ^ b.scale : Nat) :=
        mul_le_mul h hpow (le_of_lt (pow_pos_cast _)) (abs_nonneg r)
      unfold Fits at hfits ⊢
      rw [abs_mul, abs_of_pos (pow_pos_cast _)] at hfits ⊢
      linarith
  · refine hcommon b.scale (Nat.le_of_eq heq) (Nat.le_refl _) ?_
    rw [heq]
    exact Nat.mul_le_mul_right _ (ha.nearest.mono (heq ▸ hb.nearest) (hat _))
  · refine hcommon a.scale (Nat.le_refl _) (Nat.le_of_lt hgt) ?_
    rw [Nat.sub_self, Nat.pow_zero, Nat.mul_one]
    rcases hb.full with hexact | hlast | hfull
    · exact ha.nearest.mono (nearest_of_exact hexact (Nat.le_of_lt hgt)) (hat _)
    · have := a.scale_le
      omega
    · have hten : 10 ^ 1 ≤ 10 ^ (a.scale - b.scale) := Nat.pow_le_pow_right (by decide) (by omega)
      calc a.coefficient.natAbs ≤ maxCoefficient := a.coefficient_le
        _ ≤ b.coefficient.natAbs * 10 := hb.max_le_of_not_fits hfull
        _ ≤ b.coefficient.natAbs * 10 ^ (a.scale - b.scale) := Nat.mul_le_mul_left _ hten

theorem value_nonneg (h : RoundedTo q d) (hq : 0 ≤ q) : 0 ≤ d.value := by
  rcases eq_or_lt_of_le hq with rfl | hpos
  · have hle := h.nearest.below
    rw [abs_zero, zero_mul, mul_zero, zero_add] at hle
    have hcoefficient : d.coefficient = 0 := by
      have : (2 * d.coefficient.natAbs : Rat) ≤ 1 := hle
      have : 2 * d.coefficient.natAbs ≤ 1 := by exact_mod_cast this
      omega
    rw [value_eq_zero_iff.2 (isZero_iff.2 hcoefficient)]
  · exact nonneg_of_mul_nonneg_right h.sign hpos

theorem neg (h : RoundedTo q d) : RoundedTo (-q) (-d) := by
  refine ⟨?_, ?_, ?_⟩
  · rw [abs_neg, coefficient_neg, Int.natAbs_neg]
    exact h.nearest
  · rw [value_neg, neg_mul_neg]
    exact h.sign
  · rw [value_neg, neg_inj, neg_mul, ← fits_abs, abs_neg, fits_abs]
    exact h.full

theorem abs (h : RoundedTo q d) : RoundedTo |q| d.abs := by
  refine ⟨?_, ?_, ?_⟩
  · rw [abs_abs]
    exact h.nearest
  · rw [value_abs]
    exact mul_nonneg (abs_nonneg q) (abs_nonneg d.value)
  · rw [value_abs, ← fits_abs, abs_mul, abs_abs, ← abs_mul, fits_abs]
    exact h.full.imp_left fun hexact => congrArg _ hexact

/-- Half a unit of the last place is the most that is lost. -/
theorem abs_value_sub_le (h : RoundedTo q d) :
    2 * (|d.value - q| * (10 ^ d.scale : Nat)) ≤ 1 := by
  have hpow := pow_pos_cast d.scale
  have hcoefficient : |d.value| * (10 ^ d.scale : Nat) = d.coefficient.natAbs := by
    rw [abs_value, div_mul_cancel₀ _ (ne_of_gt hpow)]
  have hmagnitudes : |d.value - q| = |(|d.value| - |q|)| := by
    rcases le_total 0 q with hq | hq
    · rw [abs_of_nonneg (h.value_nonneg hq), abs_of_nonneg hq]
    · have hd : d.value ≤ 0 := by
        have := h.neg.value_nonneg (neg_nonneg.2 hq)
        rwa [value_neg, neg_nonneg] at this
      rw [abs_of_nonpos hd, abs_of_nonpos hq, neg_sub_neg, abs_sub_comm]
  have habove := h.nearest.above
  have hbelow := h.nearest.below
  have hunit : |(|d.value| - |q|) * (10 ^ d.scale : Nat)| ≤ 1 / 2 := by
    rw [sub_mul, hcoefficient]
    refine abs_le.2 ⟨?_, ?_⟩
    · linarith
    · linarith
  rw [abs_mul, abs_of_pos hpow, ← hmagnitudes] at hunit
  linarith

end RoundedTo

/-- **Rounding is monotone**, whatever places the results are rounded to. -/
theorem Rounds.value_le (ha : Rounds q a) (hb : Rounds r b) (h : q ≤ r) : a.value ≤ b.value := by
  obtain ⟨a', ha', hqa⟩ := ha
  obtain ⟨b', hb', hrb⟩ := hb
  rw [← ha', ← hb']
  have hneg : ∀ {q d}, RoundedTo q d → q ≤ 0 → d.value ≤ 0 := by
    intro q d hd hq
    have := hd.neg.value_nonneg (neg_nonneg.2 hq)
    rwa [value_neg, neg_nonneg] at this
  rcases le_total 0 q with hq | hq
  · have hr := hq.trans h
    have hle := hqa.abs_value_le hrb (by rwa [abs_of_nonneg hq, abs_of_nonneg hr])
    rwa [abs_of_nonneg (hqa.value_nonneg hq), abs_of_nonneg (hrb.value_nonneg hr)] at hle
  · rcases le_total 0 r with hr | hr
    · exact (hneg hqa hq).trans (hrb.value_nonneg hr)
    · have hle := hrb.abs_value_le hqa (by rw [abs_of_nonpos hq, abs_of_nonpos hr]; linarith)
      rw [abs_of_nonpos (hneg hqa hq), abs_of_nonpos (hneg hrb hr)] at hle
      linarith

/-- A decimal is its own value, rounded. -/
theorem roundedTo_value (d : Decimal) : RoundedTo d.value d where
  nearest := by
    have h := RoundedTo.nearest_of_exact (d := d) rfl (Nat.le_refl d.scale)
    rwa [Nat.sub_self, Nat.pow_zero, Nat.mul_one] at h
  sign := mul_self_nonneg d.value
  full := .inl rfl

theorem rounds_value (d : Decimal) : Rounds d.value d := ⟨d, rfl, roundedTo_value d⟩

namespace Rounds

theorem congr (h : Rounds q a) (hab : a.value = b.value) : Rounds q b := by
  obtain ⟨a', ha', hqa⟩ := h
  exact ⟨a', ha'.trans hab, hqa⟩

theorem abs (h : Rounds q d) : Rounds |q| d.abs := by
  obtain ⟨d', hd', hqd⟩ := h
  refine ⟨d'.abs, ?_, hqd.abs⟩
  rw [value_abs, value_abs, hd']

/-- The larger of two results is rounded to the larger of the two decimals. -/
theorem max (ha : Rounds q a) (hb : Rounds r b) : Rounds (Max.max q r) (a.max b) := by
  rcases le_total q r with h | h
  · rw [max_eq_right h]
    refine hb.congr ?_
    rw [value_max, max_eq_right (ha.value_le hb h)]
  · rw [max_eq_left h]
    refine ha.congr ?_
    rw [value_max, max_eq_left (hb.value_le ha h)]

/-- **Rounding turns no comparison round**: two results that were in the other order are rounded
to one value. -/
theorem value_le_iff (ha : Rounds q a) (hb : Rounds r b) :
    a.value ≤ b.value ↔ q ≤ r ∨ a.value = b.value := by
  constructor
  · intro h
    rcases le_total q r with hqr | hrq
    · exact .inl hqr
    · exact .inr (le_antisymm h (hb.value_le ha hrq))
  · rintro (h | h)
    · exact ha.value_le hb h
    · exact le_of_eq h

/-- **What a decimal can hold is not rounded.** -/
theorem value_eq_iff (h : Rounds q d) : d.value = q ↔ ∃ x : Decimal, x.value = q := by
  constructor
  · intro hexact
    exact ⟨d, hexact⟩
  · rintro ⟨x, rfl⟩
    exact le_antisymm (h.value_le (rounds_value x) le_rfl) ((rounds_value x).value_le h le_rfl)

end Rounds

/-! ## 3. Operations -/

theorem roundedTo_atScale? {num : Int} {den s : Nat} (hden : 0 < den)
    (h : atScale? num den s = some d) :
    d.scale = s ∧ IsNearest (|(num : Rat) / den| * (10 ^ s : Nat)) d.coefficient.natAbs ∧
      0 ≤ (num : Rat) / den * d.value := by
  simp only [atScale?, Option.dite_none_right_eq_some, Option.some.injEq] at h
  obtain ⟨_, rfl⟩ := h
  have hpos : (0 : Rat) < den := by exact_mod_cast hden
  have habs : |(num : Rat) / den| * (10 ^ s : Nat) = ((num.natAbs * 10 ^ s : Nat) : Rat) / den := by
    rw [abs_div, abs_of_pos hpos, ← Int.cast_abs, Int.abs_eq_natAbs, Int.cast_natCast,
      Nat.cast_mul, div_mul_eq_mul_div]
  refine ⟨rfl, ?_, ?_⟩
  · have hnearest := isNearest_roundHalfEven (num.natAbs * 10 ^ s) hden
    rw [habs, Int.natAbs_mul, Int.natAbs_natCast]
    rcases eq_or_ne num 0 with rfl | hnum
    · have hzero : roundHalfEven 0 den = 0 := by
        have := roundHalfEven_mul 0 den hden
        rwa [Nat.zero_mul] at this
      simpa [hzero] using hnearest
    · rwa [Int.natAbs_sign_of_ne_zero hnum, Nat.one_mul]
  · rw [value, Int.cast_mul, div_mul_div_comm]
    refine div_nonneg ?_ (mul_nonneg (le_of_lt hpos) (le_of_lt (pow_pos_cast s)))
    rw [← mul_assoc, ← Int.cast_mul, Int.mul_sign_self, Int.cast_natCast]
    positivity

/-- The places of a rounded quotient: one more was not possible. -/
theorem nearest?_eq_some {num : Int} {den scale : Nat} (h : nearest? num den scale = some d) :
    ∃ s ≤ scale, atScale? num den s = some d ∧ (s < scale → atScale? num den (s + 1) = none) := by
  induction scale with
  | zero => exact ⟨0, Nat.le_refl _, h, nofun⟩
  | succ scale ih =>
    rw [nearest?] at h
    split at h
    · rename_i d' hd
      cases h
      exact ⟨scale + 1, Nat.le_refl _, hd, fun hlt => absurd hlt (Nat.lt_irrefl _)⟩
    · rename_i hnone
      obtain ⟨s, hs, hat, hnext⟩ := ih h
      refine ⟨s, Nat.le_succ_of_le hs, hat, fun _ => ?_⟩
      rcases Nat.lt_or_eq_of_le hs with hlt | rfl
      · exact hnext hlt
      · exact hnone

/-- What has no more places than are asked for is kept. -/
theorem value_atScale? {num : Int} {s : Nat} (h : atScale? num (10 ^ s) s = some d) :
    d.value = (num : Rat) / (10 ^ s : Nat) := by
  have hround : roundHalfEven (num.natAbs * 10 ^ s) (10 ^ s) = num.natAbs :=
    roundHalfEven_mul _ _ (Nat.pow_pos (by decide))
  simp only [atScale?, hround, Int.sign_mul_natAbs, Option.dite_none_right_eq_some,
    Option.some.injEq] at h
  obtain ⟨_, rfl⟩ := h
  rfl

/-- **The nearest decimal of a quotient is the quotient, rounded**, if it is looked for with as
many places as there may be, or with as many as the quotient has. -/
theorem roundedTo_nearest? {num : Int} {den scale : Nat} (hden : 0 < den)
    (hscale : scale = maxScale ∨ den = 10 ^ scale) (h : nearest? num den scale = some d) :
    RoundedTo ((num : Rat) / den) d := by
  obtain ⟨s, hs, hat, hnext⟩ := nearest?_eq_some h
  obtain ⟨rfl, hnearest, hsign⟩ := roundedTo_atScale? hden hat
  refine ⟨hnearest, hsign, ?_⟩
  rcases Nat.lt_or_eq_of_le hs with hlt | heq
  · right
    rcases atScale?_eq_none_iff.1 (hnext hlt) with hlarge | hplaces
    · right
      rw [div_mul_eq_mul_div, ← Int.cast_natCast (10 ^ (d.scale + 1)), ← Int.cast_mul,
        fits_div_iff hden, Int.natAbs_mul, Int.natAbs_natCast,
        ← roundHalfEven_le_iff hden (by decide), Nat.not_le]
      exact hlarge
    · left
      have := d.scale_le
      omega
  · rcases hscale with rfl | rfl
    · exact .inr (.inl heq)
    · rw [heq] at hat
      exact .inl (value_atScale? hat)

/-- Two coefficients of 32 bits with very many places: nothing is left of the product. -/
theorem roundedTo_zero_of_short (ha : a.coefficient.natAbs < shortWordCount)
    (hb : b.coefficient.natAbs < shortWordCount) (hscale : 47 < a.scale + b.scale) :
    RoundedTo (a.value * b.value) ⟨0, maxScale, by decide, Nat.le_refl _⟩ := by
  refine ⟨?_, ?_, .inr (.inl rfl)⟩
  · have hproduct : a.coefficient.natAbs * b.coefficient.natAbs ≤ shortWordCount * shortWordCount :=
      Nat.mul_le_mul (Nat.le_of_lt ha) (Nat.le_of_lt hb)
    have hpow : 10 ^ 48 ≤ 10 ^ (a.scale + b.scale) := Nat.pow_le_pow_right (by decide) hscale
    have hbound : 2 * (a.coefficient.natAbs * b.coefficient.natAbs * 10 ^ maxScale) ≤
        10 ^ (a.scale + b.scale) := by
      refine le_trans ?_ hpow
      unfold shortWordCount at hproduct
      unfold maxScale
      omega
    have hsmall : 2 * (|a.value * b.value| * (10 ^ maxScale : Nat)) ≤ 1 := by
      rw [abs_mul, abs_value, abs_value, div_mul_div_comm, ← Nat.cast_mul, ← Nat.cast_mul,
        ← Nat.pow_add, div_mul_eq_mul_div, ← mul_div_assoc, div_le_one (pow_pos_cast _)]
      exact_mod_cast hbound
    have hnonneg : 0 ≤ |a.value * b.value| * (10 ^ maxScale : Nat) :=
      mul_nonneg (abs_nonneg _) (le_of_lt (pow_pos_cast _))
    exact isNearest_zero hnonneg hsmall
  · have hzero : (⟨0, maxScale, by decide, Nat.le_refl _⟩ : Decimal).value = 0 :=
      value_eq_zero_iff.2 rfl
    rw [hzero, mul_zero]

/-- **A product is the exact product, rounded.** -/
theorem rounds_mul {c : Decimal} (h : a.mul b = .ok c) : Rounds (a.value * b.value) c := by
  unfold mul at h
  dsimp only at h
  split at h
  · rename_i hfactor
    cases h
    have hvalue : a.value * b.value = zero.value := by
      rw [value_zero, mul_eq_zero, value_eq_zero_iff, value_eq_zero_iff]
      simpa using hfactor
    exact ⟨zero, rfl, hvalue ▸ roundedTo_value zero⟩
  · split at h
    · rename_i hshort
      cases h
      simp only [Bool.and_eq_true, decide_eq_true_eq] at hshort
      refine ⟨_, ?_, roundedTo_zero_of_short hshort.1.1 hshort.1.2 hshort.2⟩
      rw [value_zero, value_eq_zero_iff, isZero_iff]
    · rw [value_mul_value]
      exact ⟨c, rfl, roundedTo_nearest? (Nat.pow_pos (by decide)) (.inr rfl)
        (rounded_eq_ok_iff.1 h)⟩

/-- **A sum is the exact sum, rounded.** -/
theorem rounds_add {c : Decimal} (h : a.add b = .ok c) : Rounds (a.value + b.value) c := by
  rcases add_eq_ok_iff.1 h with ⟨ha, rfl⟩ | ⟨-, hb, rfl⟩ | ⟨-, -, hnearest⟩
  · rw [value_eq_zero_iff.2 ha, zero_add]
    exact rounds_value b
  · rw [value_eq_zero_iff.2 hb, add_zero]
    exact rounds_value a
  · rw [value_add_value]
    exact ⟨c, rfl, roundedTo_nearest? (Nat.pow_pos (by decide)) (.inr rfl) hnearest⟩

/-- **A difference is the exact difference, rounded.** -/
theorem rounds_sub {c : Decimal} (h : a.sub b = .ok c) : Rounds (a.value - b.value) c := by
  have hadd : a.add (-b) = .ok c := mapError_eq_ok_iff.1 h
  rw [sub_eq_add_neg, ← value_neg]
  exact rounds_add hadd

/-- **A quotient is the exact quotient, rounded.** -/
theorem rounds_div {c : Decimal} (hb : b.isZero = false) (h : a.div b = .ok c) :
    Rounds (a.value / b.value) c := by
  unfold div at h
  rw [hb] at h
  cases ha : a.isZero with
  | true =>
    simp only [ha, Bool.false_eq_true, if_false, if_true, Except.ok.injEq] at h
    subst h
    have hzero : a.value / b.value = zero.value := by
      rw [value_eq_zero_iff.2 ha, zero_div, value_zero]
    rw [hzero]
    exact rounds_value zero
  | false =>
    rw [ha] at h
    rw [value_div_value a hb]
    exact ⟨c, rfl, roundedTo_nearest? (divisor_pos a hb) (.inl rfl) (rounded_eq_ok_iff.1 h)⟩

/-! ## 4. What a sum loses

A sum has no more places than a decimal may have, so it is rounded only for want of room: there
are as many digits left as a coefficient can hold, and the loss is small against the sum.  It need
not be small against the smaller of the two amounts. -/

/-- `SumOf a b c`: the decimal is the sum, as exactly as a decimal can hold it. -/
structure SumOf (a b c : Decimal) : Prop where
  rounds : Rounds (a.value + b.value) c
  exact_iff : c.value = a.value + b.value ↔ ∃ x : Decimal, x.value = a.value + b.value
  loss_le : |c.value - (a.value + b.value)| * (10 ^ maxScale : Nat) ≤ |a.value + b.value|

/-- Where there is no room for one more place, all digits of the coefficient are used, and the
loss is a small part of the result. -/
theorem RoundedTo.loss_le (h : RoundedTo q d) (hfull : ¬ Fits (q * (10 ^ (d.scale + 1) : Nat))) :
    |d.value - q| * (10 ^ maxScale : Nat) ≤ |q| := by
  have hpow := pow_pos_cast d.scale
  have hunit := h.abs_value_sub_le
  have hlarge : (2 * maxCoefficient + 1 : Rat) ≤ 20 * (|q| * (10 ^ d.scale : Nat)) := by
    rw [Fits, not_lt, abs_mul, abs_of_pos (pow_pos_cast _), Nat.pow_succ, Nat.cast_mul,
      ← mul_assoc |q|, Nat.cast_ofNat] at hfull
    linarith
  have hdigits : (10 * (10 ^ maxScale : Nat) : Rat) ≤ 2 * maxCoefficient + 1 := by
    exact_mod_cast (by decide : 10 * 10 ^ maxScale ≤ 2 * maxCoefficient + 1)
  refine le_of_mul_le_mul_right ?_ hpow
  have hscaled : 2 * (|d.value - q| * (10 ^ d.scale : Nat)) * (10 ^ maxScale : Nat) ≤
      1 * (10 ^ maxScale : Nat) :=
    mul_le_mul_of_nonneg_right hunit (le_of_lt (pow_pos_cast maxScale))
  linarith

/-- **A sum that is not exact loses less than a unit in its 28th digit.** -/
theorem sumOf_add {c : Decimal} (h : a.add b = .ok c) : SumOf a b c := by
  have hrounds := rounds_add h
  refine ⟨hrounds, hrounds.value_eq_iff, ?_⟩
  have hexact : c.value = a.value + b.value →
      |c.value - (a.value + b.value)| * (10 ^ maxScale : Nat) ≤ |a.value + b.value| := by
    intro heq
    rw [heq, sub_self, abs_zero, zero_mul]
    exact abs_nonneg _
  rcases add_eq_ok_iff.1 h with ⟨ha, rfl⟩ | ⟨-, hb, rfl⟩ | ⟨-, -, hnearest⟩
  · exact hexact (by rw [value_eq_zero_iff.2 ha, zero_add])
  · exact hexact (by rw [value_eq_zero_iff.2 hb, add_zero])
  · have hrounded := roundedTo_nearest? (Nat.pow_pos (by decide)) (.inr rfl) hnearest
    rw [← value_add_value] at hrounded
    rcases hrounded.full with heq | hlast | hfull
    · exact hexact heq
    · -- all places that there may be, so all that the operands have
      obtain ⟨s, hs, hat, -⟩ := nearest?_eq_some hnearest
      obtain ⟨rfl, -, -⟩ := roundedTo_atScale? (Nat.pow_pos (by decide)) hat
      have hplaces : a.scale.max b.scale ≤ maxScale := Nat.max_le.2 ⟨a.scale_le, b.scale_le⟩
      have hscale : c.scale = a.scale.max b.scale := by omega
      rw [hscale] at hat
      exact hexact ((value_atScale? hat).trans (value_add_value a b).symm)
    · exact hrounded.loss_le hfull

end Decimal

end Reconciliation
