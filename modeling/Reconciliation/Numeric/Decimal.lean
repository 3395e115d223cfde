/-
# Decimal amounts

An amount is an integer coefficient over a power of ten: 96 bits of coefficient, at most 28
decimal places.  The places are part of the amount: `1.50` and `1.5` are two decimals with one
value.  Comparisons go by value; equality of decimals (`=`) also compares the places.

* `value`: the rational number that a decimal stands for;
* `lt_iff_value_lt`, `le_iff_value_le`, `same_iff_value_eq`: the comparisons are those of values.
-/

namespace Reconciliation

-- Powers are those of the core library, whatever other instances are in scope.
attribute [local instance (2000)] instPowNat

/-! ## 1. The type -/

/-- The largest coefficient, `2 ^ 96 - 1`. -/
def Decimal.maxCoefficient : Nat := 79228162514264337593543950335

/-- The largest number of decimal places. -/
def Decimal.maxScale : Nat := 28

/-- A decimal number `coefficient / 10 ^ scale`. -/
structure Decimal where
  coefficient : Int
  scale : Nat
  coefficient_le : coefficient.natAbs ≤ Decimal.maxCoefficient
  scale_le : scale ≤ Decimal.maxScale
  deriving DecidableEq

namespace Decimal

def zero : Decimal := ⟨0, 0, by decide, by decide⟩

def one : Decimal := ⟨1, 0, by decide, by decide⟩

instance : Inhabited Decimal := ⟨zero⟩

/-- The decimal without places of an integer, if its coefficient fits. -/
def ofInt? (n : Int) : Option Decimal :=
  if h : n.natAbs ≤ maxCoefficient then some ⟨n, 0, h, Nat.zero_le _⟩ else none

def isZero (d : Decimal) : Bool := d.coefficient == 0

def isNegative (d : Decimal) : Bool := d.coefficient < 0

/-- The same amount with the other sign. -/
def neg (d : Decimal) : Decimal :=
  ⟨-d.coefficient, d.scale, by rw [Int.natAbs_neg]; exact d.coefficient_le, d.scale_le⟩

instance : Neg Decimal := ⟨neg⟩

def abs (d : Decimal) : Decimal :=
  ⟨d.coefficient.natAbs, d.scale, by rw [Int.natAbs_natCast]; exact d.coefficient_le, d.scale_le⟩

/-! ## 2. Order by value -/

/-- The rational number of a decimal. -/
def value (d : Decimal) : Rat := (d.coefficient : Rat) / (10 ^ d.scale : Nat)

instance : LT Decimal :=
  ⟨fun a b => a.coefficient * (10 ^ b.scale : Nat) < b.coefficient * (10 ^ a.scale : Nat)⟩

instance : LE Decimal :=
  ⟨fun a b => a.coefficient * (10 ^ b.scale : Nat) ≤ b.coefficient * (10 ^ a.scale : Nat)⟩

/-- Two decimals of one value, whatever their places. -/
def Same (a b : Decimal) : Prop :=
  a.coefficient * (10 ^ b.scale : Nat) = b.coefficient * (10 ^ a.scale : Nat)

instance (a b : Decimal) : Decidable (a < b) := Int.decLt _ _

instance (a b : Decimal) : Decidable (a ≤ b) := Int.decLe _ _

instance (a b : Decimal) : Decidable (Same a b) := inferInstanceAs (Decidable (_ = _))

/-- The larger of two decimals, the first where the values are the same. -/
def max (a b : Decimal) : Decimal := if a < b then b else a

theorem pow_scale_pos (d : Decimal) : (0 : Rat) < (10 ^ d.scale : Nat) := by
  have : 0 < 10 ^ d.scale := Nat.pow_pos (by decide)
  exact_mod_cast this

theorem lt_iff_value_lt {a b : Decimal} : a < b ↔ a.value < b.value := by
  have ha := a.pow_scale_pos
  have hb := b.pow_scale_pos
  have hc : (b.coefficient : Rat) / (10 ^ b.scale : Nat) * (10 ^ a.scale : Nat) =
      (b.coefficient * (10 ^ a.scale : Nat)) / (10 ^ b.scale : Nat) := by
    rw [Rat.div_def, Rat.div_def, Rat.mul_assoc, Rat.mul_comm _ ((10 ^ a.scale : Nat) : Rat),
      Rat.mul_assoc]
  rw [value, value, Rat.div_lt_iff ha, hc, Rat.lt_div_iff hb]
  show a.coefficient * (10 ^ b.scale : Nat) < b.coefficient * (10 ^ a.scale : Nat) ↔ _
  exact_mod_cast Iff.rfl

theorem le_iff_not_lt {a b : Decimal} : a ≤ b ↔ ¬ b < a := Int.not_lt.symm

theorem le_iff_value_le {a b : Decimal} : a ≤ b ↔ a.value ≤ b.value := by
  rw [le_iff_not_lt, lt_iff_value_lt, Rat.not_lt]

theorem same_iff_value_eq {a b : Decimal} : Same a b ↔ a.value = b.value := by
  have h : Same a b ↔ a ≤ b ∧ b ≤ a := by
    show a.coefficient * (10 ^ b.scale : Nat) = b.coefficient * (10 ^ a.scale : Nat) ↔
      a.coefficient * (10 ^ b.scale : Nat) ≤ b.coefficient * (10 ^ a.scale : Nat) ∧
      b.coefficient * (10 ^ a.scale : Nat) ≤ a.coefficient * (10 ^ b.scale : Nat)
    omega
  rw [h, le_iff_value_le, le_iff_value_le]
  exact ⟨fun ⟨h1, h2⟩ => Rat.le_antisymm h1 h2, fun e => ⟨e ▸ Rat.le_refl, e ▸ Rat.le_refl⟩⟩

end Decimal

end Reconciliation
