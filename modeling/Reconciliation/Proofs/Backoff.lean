/-
# How long is waited before a call is repeated

A delay is the first one times a power of two, and at most the longest that the policy allows.
Two bounds come before that one: the power is kept within a word of 32 bits, the product within the
longest span, whose whole seconds are a word of 64 bits.  The second bound never shows, because the
longest delay is a span and so lies below it.  The first one shows from the 32nd power on, where
the factor stops growing.

That no word overflows on the way is a statement about how the product is computed: seconds and
nanoseconds apart, each in a word of 64 bits, with a carry from one to the other
(`Span.partsTimes`).  The nanoseconds fit their word for every factor; the seconds leave theirs
exactly if the product is longer than any span.

* `Span.nanos_times_eq_parts`: the product of a span, by its parts;
* `RetryPolicy.factor_eq`: the power of two, or the largest word;
* `RetryPolicy.nanos_backoff`, `RetryPolicy.nanos_backoff_succ`: every delay in closed form, and
  from the one before it;
* `RetryPolicy.backoff_doubles_until_capped`: no word overflows, the delays never shrink and never
  pass the longest one, and they are exact while the power fits its word.
-/
import Mathlib.Algebra.Group.Nat.Defs
import Reconciliation.Retry

namespace Reconciliation

/-! ## 1. Products of spans -/

/-- A number as a word of 64 bits, if it fits. -/
def word? (n : Nat) : Option Nat := if n < wordCount then some n else none

namespace Span

/-- The longest span. -/
def longest : Span := ⟨maxNanos, Nat.le_refl _⟩

theorem nanos_eq_parts (s : Span) : s.seconds * 1000000000 + s.subsecond = s.nanos :=
  Nat.div_add_mod' _ _

theorem seconds_lt (s : Span) : s.seconds < wordCount := by
  have hle := s.nanos_le
  simp only [maxNanos] at hle
  simp only [seconds, wordCount]
  omega

theorem subsecond_lt (s : Span) : s.subsecond < 1000000000 := Nat.mod_lt _ (by decide)

theorem nanos_min (a b : Span) : (a.min b).nanos = Nat.min a.nanos b.nanos := by
  by_cases h : b < a
  · rw [Span.min, if_pos h]
    exact (Nat.min_eq_right (Nat.le_of_lt h)).symm
  · rw [Span.min, if_neg h]
    exact (Nat.min_eq_left (Nat.le_of_not_lt h)).symm

/-- The seconds and nanoseconds of a multiple: the nanoseconds carry into the seconds, and there
are none if the seconds do not fit their word. -/
def partsTimes (s : Span) (n : Nat) : Option (Nat × Nat) := do
  let nanos := s.subsecond * n
  let whole ← word? (s.seconds * n)
  let seconds ← word? (whole + nanos / 1000000000)
  return (seconds, nanos % 1000000000)

/-- The nanoseconds of seconds and nanoseconds, those of the longest span if there are none. -/
def partsNanos : Option (Nat × Nat) → Nat
  | some (seconds, nanos) => seconds * 1000000000 + nanos
  | none => longest.nanos

/-- The nanoseconds of a multiple stay in their word until they carry. -/
theorem subsecond_mul_lt (s : Span) {n : Nat} (h : n < shortWordCount) :
    s.subsecond * n < wordCount :=
  calc s.subsecond * n ≤ 1000000000 * n := Nat.mul_le_mul_right n (Nat.le_of_lt s.subsecond_lt)
    _ ≤ 1000000000 * shortWordCount := Nat.mul_le_mul_left _ (Nat.le_of_lt h)
    _ < wordCount := by decide

/-- **A multiple is what its parts come to**, or the longest span if they leave their words. -/
theorem nanos_times_eq_parts (s : Span) (n : Nat) :
    (s.times n).nanos = partsNanos (s.partsTimes n) := by
  have hproduct : s.nanos * n = s.seconds * n * 1000000000 + s.subsecond * n := by
    rw [← s.nanos_eq_parts, Nat.add_mul, Nat.mul_right_comm]
  rw [s.nanos_times, hproduct, partsTimes]
  -- from here on only the sizes of the two products matter
  generalize s.seconds * n = whole
  generalize s.subsecond * n = nanos
  have hcarry : (whole + nanos / 1000000000) * 1000000000 + nanos % 1000000000 =
      whole * 1000000000 + nanos := by omega
  by_cases hwhole : whole < wordCount
  · by_cases hseconds : whole + nanos / 1000000000 < wordCount
    · simp only [word?, hwhole, hseconds, if_true, Option.bind_eq_bind, Option.bind_some, pure,
        partsNanos, hcarry]
      simp only [wordCount] at hseconds
      exact Nat.min_eq_left (by simp only [maxNanos]; omega)
    · simp only [word?, hwhole, hseconds, if_true, if_false, Option.bind_eq_bind, Option.bind_some,
        Option.bind_none, partsNanos]
      simp only [wordCount] at hseconds
      exact Nat.min_eq_right (by simp only [maxNanos]; omega)
  · simp only [word?, hwhole, if_false, Option.bind_eq_bind, Option.bind_none, partsNanos]
    simp only [wordCount] at hwhole
    exact Nat.min_eq_right (by simp only [maxNanos]; omega)

end Span

namespace RetryPolicy

/-! ## 2. Delays -/

/-- **The factor is the power of two, or the largest word.** -/
theorem factor_eq (attempt : Nat) : factor attempt = min (2 ^ attempt) maxFactor := by
  rw [factor]
  split
  · rename_i hlt
    have hpow : 2 ^ attempt ≤ 2 ^ 31 := Nat.pow_le_pow_right (by decide) (Nat.le_of_lt_succ hlt)
    rw [Nat.one_shiftLeft]
    exact (Nat.min_eq_left (Nat.le_trans hpow (by decide))).symm
  · rename_i hge
    have hpow : 2 ^ 32 ≤ 2 ^ attempt := Nat.pow_le_pow_right (by decide) (Nat.le_of_not_lt hge)
    exact (Nat.min_eq_right (Nat.le_trans (by decide) hpow)).symm

theorem factor_lt (attempt : Nat) : factor attempt < shortWordCount := by
  have hle : factor attempt ≤ maxFactor := factor_eq attempt ▸ Nat.min_le_right _ _
  exact Nat.lt_of_le_of_lt hle (by decide)

theorem factor_le_factor {earlier later : Nat} (h : earlier ≤ later) :
    factor earlier ≤ factor later := by
  have hpow : 2 ^ earlier ≤ 2 ^ later := Nat.pow_le_pow_right (by decide) h
  rw [factor_eq, factor_eq]
  exact Nat.le_min.mpr ⟨Nat.le_trans (Nat.min_le_left _ _) hpow, Nat.min_le_right _ _⟩

theorem factor_of_lt {attempt : Nat} (h : attempt < 32) : factor attempt = 2 ^ attempt := by
  rw [factor, if_pos h, Nat.one_shiftLeft]

variable (p : RetryPolicy)

/-- **Every delay in closed form**: the longest span does not show in it, as no longest delay is
longer. -/
theorem nanos_backoff (attempt : Nat) :
    (p.backoff attempt).nanos =
      min (p.initialBackoff.nanos * factor attempt) p.maxBackoff.nanos := by
  have hmax : min Span.maxNanos p.maxBackoff.nanos = p.maxBackoff.nanos :=
    Nat.min_eq_right p.maxBackoff.nanos_le
  rw [backoff, Span.nanos_min, Span.nanos_times]
  calc min (min (p.initialBackoff.nanos * factor attempt) Span.maxNanos) p.maxBackoff.nanos
      = min (p.initialBackoff.nanos * factor attempt) (min Span.maxNanos p.maxBackoff.nanos) :=
        Nat.min_assoc _ _ _
    _ = min (p.initialBackoff.nanos * factor attempt) p.maxBackoff.nanos := by rw [hmax]

/-- While the power fits its word, the next delay is twice this one, or the longest. -/
theorem nanos_backoff_succ {attempt : Nat} (h : attempt + 1 < 32) :
    (p.backoff (attempt + 1)).nanos =
      min (2 * (p.backoff attempt).nanos) p.maxBackoff.nanos := by
  have hdouble : p.initialBackoff.nanos * 2 ^ (attempt + 1) =
      2 * (p.initialBackoff.nanos * 2 ^ attempt) := by
    rw [Nat.pow_succ, ← Nat.mul_assoc, Nat.mul_comm]
  rw [nanos_backoff, nanos_backoff, factor_of_lt h, factor_of_lt (Nat.lt_of_succ_lt h), hdouble]
  omega

theorem backoff_le_maxBackoff (attempt : Nat) : p.backoff attempt ≤ p.maxBackoff := by
  show (p.backoff attempt).nanos ≤ p.maxBackoff.nanos
  rw [nanos_backoff]
  exact Nat.min_le_right _ _

theorem backoff_le_backoff {earlier later : Nat} (h : earlier ≤ later) :
    p.backoff earlier ≤ p.backoff later := by
  have hproduct : p.initialBackoff.nanos * factor earlier ≤ p.initialBackoff.nanos * factor later :=
    Nat.mul_le_mul_left _ (factor_le_factor h)
  show (p.backoff earlier).nanos ≤ (p.backoff later).nanos
  rw [nanos_backoff, nanos_backoff]
  exact Nat.le_min.mpr ⟨Nat.le_trans (Nat.min_le_left _ _) hproduct, Nat.min_le_right _ _⟩

/-- **Delays double until they reach the longest one.**  Every policy has a delay for every
attempt: the factor is a word of 32 bits, the nanoseconds times it are a word of 64, and the delay
is what the parts of the product come to, or the longest span, but at most the longest delay.  No
delay is shorter than one before it.  While the power of two fits its word the delay is exact, also
where the product is longer than any span; after that the factor stands still. -/
theorem backoff_doubles_until_capped (attempt : Nat) :
    factor attempt < shortWordCount ∧
    p.initialBackoff.subsecond * factor attempt < wordCount ∧
    (p.backoff attempt).nanos =
      min (Span.partsNanos (p.initialBackoff.partsTimes (factor attempt))) p.maxBackoff.nanos ∧
    (p.backoff attempt).seconds < wordCount ∧
    p.backoff attempt ≤ p.maxBackoff ∧
    (∀ later, attempt ≤ later → p.backoff attempt ≤ p.backoff later) ∧
    (attempt < 32 → (p.backoff attempt).nanos =
      min (p.initialBackoff.nanos * 2 ^ attempt) p.maxBackoff.nanos) ∧
    (32 ≤ attempt → (p.backoff attempt).nanos =
      min (p.initialBackoff.nanos * (2 ^ 32 - 1)) p.maxBackoff.nanos) := by
  have hparts := p.initialBackoff.nanos_times_eq_parts (factor attempt)
  refine ⟨factor_lt attempt, p.initialBackoff.subsecond_mul_lt (factor_lt attempt), ?_,
    (p.backoff attempt).seconds_lt, p.backoff_le_maxBackoff attempt,
    fun _ => p.backoff_le_backoff, ?_, ?_⟩
  · rw [← hparts, backoff, Span.nanos_min]
  · intro hlt
    rw [nanos_backoff, factor_of_lt hlt]
  · intro hge
    rw [nanos_backoff, factor, if_neg (Nat.not_lt.mpr hge)]
    rfl

/-- A delay is exact also where its product is longer than any span. -/
theorem backoff_of_longest :
    let p : RetryPolicy := ⟨40, .longest, .longest⟩
    (31 : Nat) < 32 ∧ p.initialBackoff.partsTimes (factor 31) = .none ∧
      Span.longest.nanos < p.initialBackoff.nanos * 2 ^ 31 ∧
      (p.backoff 31).nanos = min (p.initialBackoff.nanos * 2 ^ 31) p.maxBackoff.nanos ∧
      (p.backoff 31).nanos = Span.longest.nanos := by
  intro p
  have hexact := (p.backoff_doubles_until_capped 31).2.2.2.2.2.2.1 (by decide)
  have hlongest : Span.longest.nanos < p.initialBackoff.nanos * 2 ^ 31 := by decide
  exact ⟨by decide, by decide, hlongest, hexact,
    hexact.trans (Nat.min_eq_right (Nat.le_of_lt hlongest))⟩

end RetryPolicy
end Reconciliation
