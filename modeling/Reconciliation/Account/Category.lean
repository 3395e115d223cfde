/-
# Categories of account state

An account's state comes in three categories, which are collected and compared each on its own.
-/
import Reconciliation.Text.Blank
import Reconciliation.Json.Value

namespace Reconciliation

/-- A part of an account's state. -/
inductive Category
  | balances
  | orders
  | positions
  deriving DecidableEq, Repr

namespace Category

def all : List Category := [.balances, .orders, .positions]

def name : Category → String
  | .balances => "balances"
  | .orders => "orders"
  | .positions => "positions"

instance : ToString Category := ⟨name⟩

def ofName? (s : String) : Option Category := all.find? (·.name = s)

/-- The category of a text in any ASCII case with blanks around it; otherwise the text as it was
looked up. -/
def parse (s : String) : Except String Category :=
  let word := String.ofList ((Text.trim s.toList).map Char.toLower)
  match ofName? word with
  | some c => .ok c
  | none => .error word

/-- The message for a text that names no category. -/
def unknownMessage (word : String) : String := "unknown state category: " ++ word

def ofJson? (j : Json) : Option Category := j.asName?.bind ofName?

def toJson (c : Category) : Json := .text c.name

@[simp] theorem mem_all (c : Category) : c ∈ all := by cases c <;> decide

@[simp] theorem ofName?_name (c : Category) : ofName? c.name = some c := by cases c <;> decide

end Category

/-- One value for each category. -/
structure PerCategory (α : Type) where
  balances : α
  orders : α
  positions : α
  deriving DecidableEq

namespace PerCategory

def get (p : PerCategory α) : Category → α
  | .balances => p.balances
  | .orders => p.orders
  | .positions => p.positions

def set (p : PerCategory α) (c : Category) (a : α) : PerCategory α :=
  match c with
  | .balances => { p with balances := a }
  | .orders => { p with orders := a }
  | .positions => { p with positions := a }

/-- The same value everywhere. -/
def const (a : α) : PerCategory α := ⟨a, a, a⟩

def map (f : α → β) (p : PerCategory α) : PerCategory β :=
  ⟨f p.balances, f p.orders, f p.positions⟩

instance [Inhabited α] : Inhabited (PerCategory α) := ⟨const default⟩

/-- The categories with `true`, in order. -/
def members (p : PerCategory Bool) : List Category := Category.all.filter p.get

/-- An object with one member a category. -/
def toJson (f : α → Json) (p : PerCategory α) : Json :=
  .object (Category.all.map fun c => (c.name, f (p.get c)))

@[simp] theorem get_const (a : α) (c : Category) : (const a).get c = a := by cases c <;> rfl

@[simp] theorem get_set_self (p : PerCategory α) (c : Category) (a : α) :
    (p.set c a).get c = a := by
  cases c <;> rfl

theorem get_set_of_ne (p : PerCategory α) {c d : Category} (a : α) (h : d ≠ c) :
    (p.set c a).get d = p.get d := by
  cases c <;> cases d <;> first | rfl | exact absurd rfl h

theorem ext_get {p q : PerCategory α} (h : ∀ c, p.get c = q.get c) : p = q := by
  cases p; cases q
  simp only [mk.injEq]
  exact ⟨h .balances, h .orders, h .positions⟩

end PerCategory

end Reconciliation
