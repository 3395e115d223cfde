/-
# Instants

An instant is a number of seconds since 1970-01-01T00:00:00Z, leap seconds not counted, and the
nanoseconds after that second.  Within a leap second the nanoseconds go on from `10 ^ 9`, so a
leap second lies after its minute's last second and before the next minute; no other second has
one after it.

* `lt_trans`, `lt_irrefl`, `le_iff_not_lt`: instants are linearly ordered;
* `le_max_left`, `le_max_right`: the later of two instants.
-/

namespace Reconciliation

/-- A point in time, to the nanosecond. -/
structure Instant where
  seconds : Int
  nanos : Nat
  nanos_lt : nanos < 2000000000
  leap_at_end : 1000000000 ≤ nanos → seconds % 60 = 59
  deriving DecidableEq

namespace Instant

/-- The first instant of 1970. -/
def epoch : Instant := ⟨0, 0, by decide, by decide⟩

instance : Inhabited Instant := ⟨epoch⟩

/-! ## 1. Order -/

instance : LT Instant :=
  ⟨fun a b => a.seconds < b.seconds ∨ a.seconds = b.seconds ∧ a.nanos < b.nanos⟩

instance : LE Instant :=
  ⟨fun a b => a.seconds < b.seconds ∨ a.seconds = b.seconds ∧ a.nanos ≤ b.nanos⟩

theorem lt_def {a b : Instant} :
    a < b ↔ a.seconds < b.seconds ∨ a.seconds = b.seconds ∧ a.nanos < b.nanos := Iff.rfl

theorem le_def {a b : Instant} :
    a ≤ b ↔ a.seconds < b.seconds ∨ a.seconds = b.seconds ∧ a.nanos ≤ b.nanos := Iff.rfl

instance (a b : Instant) : Decidable (a < b) := decidable_of_iff _ lt_def.symm

instance (a b : Instant) : Decidable (a ≤ b) := decidable_of_iff _ le_def.symm

theorem lt_irrefl (a : Instant) : ¬ a < a := by simp [lt_def]

theorem lt_trans {a b c : Instant} (h : a < b) (h' : b < c) : a < c := by
  simp only [lt_def] at *; omega

theorem le_refl (a : Instant) : a ≤ a := by simp [le_def]

theorem le_trans {a b c : Instant} (h : a ≤ b) (h' : b ≤ c) : a ≤ c := by
  simp only [le_def] at *; omega

theorem le_iff_not_lt {a b : Instant} : a ≤ b ↔ ¬ b < a := by
  simp only [le_def, lt_def]; omega

theorem le_antisymm {a b : Instant} (h : a ≤ b) (h' : b ≤ a) : a = b := by
  obtain ⟨s, n, _⟩ := a
  obtain ⟨s', n', _⟩ := b
  simp only [le_def] at h h'
  obtain rfl : s = s' := by omega
  obtain rfl : n = n' := by omega
  rfl

/-- The later of two instants. -/
def max (a b : Instant) : Instant := if b < a then a else b

theorem le_max_left (a b : Instant) : a ≤ a.max b := by
  simp only [max]
  split
  · exact le_refl a
  · rename_i h; exact le_iff_not_lt.2 h

theorem le_max_right (a b : Instant) : b ≤ a.max b := by
  simp only [max]
  split
  · rename_i h; simp only [lt_def, le_def] at *; omega
  · exact le_refl b

/-! ## 2. Arithmetic -/

/-- The instant some nanoseconds later, or earlier if negative. -/
def addNanos (a : Instant) (d : Int) : Instant :=
  let total := a.seconds * 1000000000 + a.nanos + d
  ⟨total / 1000000000, (total % 1000000000).toNat, by omega, by omega⟩

/-- The seconds since midnight. -/
def secondOfDay (a : Instant) : Int := a.seconds % 86400

/-- The nanoseconds from `a` to `b`.  A leap second between two times of day counts once; which
of them is later is judged by the time of day alone. -/
def nanosUntil (a b : Instant) : Int :=
  let leap : Int :=
    if a.secondOfDay < b.secondOfDay ∧ 1000000000 ≤ a.nanos then 1
    else if b.secondOfDay < a.secondOfDay ∧ 1000000000 ≤ b.nanos then -1
    else 0
  (b.seconds - a.seconds + leap) * 1000000000 + b.nanos - a.nanos

/-- The whole milliseconds from `a` to `b`, cut toward zero. -/
def millisUntil (a b : Instant) : Int := (a.nanosUntil b).tdiv 1000000

end Instant

end Reconciliation
