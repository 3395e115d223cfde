/-
# Activities in virtual time

An activity sees a world and a clock of its own in whole milliseconds.  Time passes only while
it waits, and it is cut off at a horizon.  Activities that do not share anything can each be run
on their own timeline.

* `Timeline.pass`: waiting;
* `Timeline.within`: an answer after a delay, unless a time limit comes first.
-/
import Reconciliation.Time.Span

namespace Reconciliation

/-- Why an activity has no result. -/
inductive Stop
  /-- Its time ran out. -/
  | cutOff
  /-- It broke off. -/
  | broken
  deriving DecidableEq, Repr

/-- A world as an activity sees it. -/
structure Timed (σ : Type) where
  world : σ
  /-- The time, in milliseconds. -/
  now : Nat
  /-- The time from which on nothing happens. -/
  horizon : Option Nat

abbrev Timeline (σ : Type) := ExceptT Stop (StateM (Timed σ))

namespace Timeline

variable {σ α : Type}

/-- Lets milliseconds pass; the activity ends at its horizon. -/
def pass (ms : Nat) : Timeline σ Unit := do
  let t ← get
  let later := t.now + ms
  match t.horizon with
  | none => set { t with now := later }
  | some h =>
    if later < h then set { t with now := later }
    else
      set { t with now := h }
      throw .cutOff

/-- Waits for a span. -/
def wait (s : Span) : Timeline σ Unit := pass s.millis

/-- An answer after a delay, or none if a time limit is shorter than the delay. -/
def within (limit : Span) (delay : Nat) (answer : Timeline σ α) : Timeline σ (Option α) := do
  if delay ≤ limit.millis then
    pass delay
    return some (← answer)
  else
    pass limit.millis
    return none

/-- Runs an activity from a time on: what it ends with, and when. -/
def start (activity : Timeline σ α) (world : σ) (now : Nat) (horizon : Option Nat) :
    Except Stop α × Timed σ :=
  (ExceptT.run activity).run { world, now, horizon }

end Timeline

end Reconciliation
