/-
# White space

The characters with the Unicode property `White_Space`, and text without them at its ends.

* `trim_trim`: trimming twice is trimming once.
-/

namespace Reconciliation
namespace Text

/-- The code points with the property `White_Space`, as closed ranges. -/
def blankRanges : List (Nat × Nat) :=
  [(0x09, 0x0d), (0x20, 0x20), (0x85, 0x85), (0xa0, 0xa0), (0x1680, 0x1680), (0x2000, 0x200a),
    (0x2028, 0x2029), (0x202f, 0x202f), (0x205f, 0x205f), (0x3000, 0x3000)]

def isBlank (c : Char) : Bool := blankRanges.any fun r => r.1 ≤ c.toNat && c.toNat ≤ r.2

/-- Without the blanks in front. -/
def trimStart (cs : List Char) : List Char := cs.dropWhile isBlank

/-- Without the blanks at the end. -/
def trimEnd (cs : List Char) : List Char := (cs.reverse.dropWhile isBlank).reverse

def trim (cs : List Char) : List Char := trimEnd (trimStart cs)

theorem dropWhile_eq_self_iff {p : Char → Bool} {cs : List Char} :
    cs.dropWhile p = cs ↔ ∀ c ∈ cs.head?, p c = false := by
  cases cs with
  | nil => simp
  | cons c cs =>
    simp only [List.head?_cons, Option.mem_some_iff, forall_eq']
    by_cases h : p c = true
    · simp only [List.dropWhile_cons, h, ite_true, reduceCtorEq, iff_false]
      intro e
      have := (List.dropWhile_suffix (l := cs) p).length_le
      rw [e, List.length_cons] at this
      omega
    · simp [h]

theorem head?_dropWhile {p : Char → Bool} {cs : List Char} {c : Char}
    (h : c ∈ (cs.dropWhile p).head?) : p c = false := by
  induction cs with
  | nil => simp at h
  | cons d cs ih =>
    by_cases hd : p d = true
    · exact ih (by simpa [List.dropWhile_cons, hd] using h)
    · have : d = c := by simpa [List.dropWhile_cons, hd] using h
      simpa [this] using hd

/-- Dropping at the end keeps the first character, unless nothing is left. -/
theorem head?_trimEnd {cs : List Char} {c : Char} (h : c ∈ (trimEnd cs).head?) : c ∈ cs.head? := by
  have hsuf := List.dropWhile_suffix (l := cs.reverse) isBlank
  have hpre : trimEnd cs <+: cs := by
    have := List.reverse_prefix.2 hsuf
    simpa [trimEnd] using this
  obtain ⟨t, ht⟩ := hpre
  rw [← ht]
  cases e : trimEnd cs with
  | nil => simp [e] at h
  | cons a as => simpa [e] using h

theorem trim_trim (cs : List Char) : trim (trim cs) = trim cs := by
  have hs : trimStart (trim cs) = trim cs :=
    dropWhile_eq_self_iff.2 fun c hc => head?_dropWhile (head?_trimEnd hc)
  have he : ∀ l, trimEnd (trimEnd l) = trimEnd l := fun l => by
    have : (l.reverse.dropWhile isBlank).dropWhile isBlank = l.reverse.dropWhile isBlank :=
      dropWhile_eq_self_iff.2 fun c hc => head?_dropWhile hc
    simp [trimEnd, this]
  show trimEnd (trimStart (trim cs)) = trim cs
  rw [hs]
  exact he _

end Text
end Reconciliation
