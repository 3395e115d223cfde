/-
# Machine words

Counters, limits and stored numbers are words of a fixed width.  Whether a number fits a word is a
bound on it; a word of 64 bits also stands for a signed number.  A sum that is no word is an
`Overflow`, like an amount that is no decimal.

* `addWords`: the sum of two counters;
* `unsignedWord_signedWord`: the signed reading loses nothing;
* `signedWord_of_lt`, `signedWord_neg`: it changes nothing below half of the words, and turns the
  others negative;
* `signedWord_le_iff`, `le_signedWord_iff`: how words compare with such numbers;
* `take_signedWord`: limits that turn negative.
-/

namespace Reconciliation

/-! ## 1. Overflow -/

/-- An arithmetic result that its type cannot hold, by the operation that gave it: one of the
four on decimals, or the sum of two words. -/
inductive Overflow
  | addition
  | subtraction
  | multiplication
  | division
  | counting
  deriving DecidableEq, Repr

def Overflow.message : Overflow → String
  | .addition => "Addition overflowed"
  | .subtraction => "Subtraction overflowed"
  | .multiplication => "Multiplication overflowed"
  | .division => "Division overflowed"
  | .counting => "attempt to add with overflow"

/-! ## 2. Words -/

/-- The number of words of 64 bits. -/
def wordCount : Nat := 18446744073709551616

/-- The number of words of 32 bits. -/
def shortWordCount : Nat := 4294967296

/-- The least number above all signed words of 64 bits. -/
def signedLimit : Nat := 9223372036854775808

/-- The sum of two words of 64 bits, if it is one. -/
def addWords (m n : Nat) : Except Overflow Nat :=
  if m + n < wordCount then .ok (m + n) else .error .counting

theorem addWords_of_lt {m n : Nat} (h : m + n < wordCount) : addWords m n = .ok (m + n) :=
  if_pos h

theorem addWords_of_le {m n : Nat} (h : wordCount ≤ m + n) : addWords m n = .error .counting :=
  if_neg (Nat.not_lt.2 h)

/-! ## 3. Signed words -/

/-- The integers that a signed word of 64 bits can be. -/
def FitsSigned (n : Int) : Prop := -(signedLimit : Int) ≤ n ∧ n < signedLimit

instance (n : Int) : Decidable (FitsSigned n) := inferInstanceAs (Decidable (_ ∧ _))

/-- The signed word with the bits of an unsigned one. -/
def signedWord (n : Nat) : Int := Int.bmod n wordCount

/-- The unsigned word with the bits of a signed one. -/
def unsignedWord (n : Int) : Nat := (n % wordCount).toNat

theorem unsignedWord_signedWord {n : Nat} (h : n < wordCount) :
    unsignedWord (signedWord n) = n := by
  have e : (n : Int) % wordCount = n := Int.emod_eq_of_lt (by omega) (by omega)
  rw [unsignedWord, signedWord, Int.bmod_emod, e, Int.toNat_natCast]

theorem signedWord_inj {n m : Nat} (hn : n < wordCount) (hm : m < wordCount)
    (h : signedWord n = signedWord m) : n = m := by
  rw [← unsignedWord_signedWord hn, h, unsignedWord_signedWord hm]

theorem signedWord_of_lt {n : Nat} (h : n < signedLimit) : signedWord n = n := by
  simp only [signedLimit] at h
  simp only [signedWord, Int.bmod_def, wordCount]
  omega

theorem signedWord_neg {n : Nat} (h : signedLimit ≤ n) (hn : n < wordCount) : signedWord n < 0 := by
  simp only [signedLimit] at h
  simp only [wordCount] at hn
  simp only [signedWord, Int.bmod_def, wordCount]
  omega

/-- A number below half of the words lies above all those that turn negative. -/
theorem signedWord_le_iff {n m : Nat} (hn : n < wordCount) (hm : m < signedLimit) :
    signedWord n ≤ signedWord m ↔ (n < signedLimit → n ≤ m) := by
  rw [signedWord_of_lt hm]
  by_cases h : n < signedLimit
  · rw [signedWord_of_lt h]
    omega
  · have := signedWord_neg (Nat.le_of_not_lt h) hn
    omega

theorem le_signedWord_iff {n m : Nat} (hn : n < wordCount) (hm : m < signedLimit) :
    signedWord m ≤ signedWord n ↔ n < signedLimit ∧ m ≤ n := by
  rw [signedWord_of_lt hm]
  by_cases h : n < signedLimit
  · rw [signedWord_of_lt h]
    omega
  · have := signedWord_neg (Nat.le_of_not_lt h) hn
    omega

/-- A limit that turns negative is none, but then there are not so many rows. -/
theorem take_signedWord {α : Type} {rows : List α} (limit : Nat)
    (hlength : rows.length ≤ signedLimit) :
    (if signedWord limit < 0 then rows else rows.take limit) = rows.take limit := by
  split
  · rename_i hnegative
    -- only a limit of at least half of the words turns negative
    have hlimit : signedLimit ≤ limit := by
      by_cases hlt : limit < signedLimit
      · rw [signedWord_of_lt hlt] at hnegative
        omega
      · omega
    rw [List.take_of_length_le (by omega)]
  · rfl

end Reconciliation
