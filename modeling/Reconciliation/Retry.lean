/-
# Repeating calls

A call that fails for a passing reason is repeated a bounded number of times, after delays that
double up to a maximum.

* `RetryPolicy.backoff`: the delay before a repetition;
* `RetryPolicy.run`: the calls and delays, in any monad that can wait.
-/
import Reconciliation.Numeric.Word
import Reconciliation.Time.Span

namespace Reconciliation

structure RetryPolicy where
  maxRetries : Nat
  initialBackoff : Span
  maxBackoff : Span
  deriving DecidableEq

namespace RetryPolicy

/-- Two repetitions, after a fifth of a second and then twice that. -/
def standard : RetryPolicy := ⟨2, .ofMillis 200, .ofSeconds 2⟩

instance : Inhabited RetryPolicy := ⟨standard⟩

/-- Only one call. -/
def none : RetryPolicy := { standard with maxRetries := 0 }

/-- The largest factor of a delay, a word of 32 bits. -/
def maxFactor : Nat := shortWordCount - 1

/-- The power of two of an attempt, or the largest factor. -/
def factor (attempt : Nat) : Nat := if attempt < 32 then 1 <<< attempt else maxFactor

/-- The delay before the repetition number `attempt`, counted from zero. -/
def backoff (p : RetryPolicy) (attempt : Nat) : Span :=
  (p.initialBackoff.times (factor attempt)).min p.maxBackoff

/-- Calls until an answer stands: a success, an error that does not pass, or the last answer that
the policy allows.  `left` counts the repetitions that are left. -/
def runFrom [Monad m] (p : RetryPolicy) (isTransient : ε → Bool) (call : m (Except ε α))
    (wait : Span → m Unit) : Nat → m (Except ε α)
  | 0 => call
  | left + 1 => do
    match ← call with
    | .ok a => return .ok a
    | .error e =>
      if isTransient e then
        wait (p.backoff (p.maxRetries - (left + 1)))
        runFrom p isTransient call wait left
      else return .error e

def run [Monad m] (p : RetryPolicy) (isTransient : ε → Bool) (call : m (Except ε α))
    (wait : Span → m Unit) : m (Except ε α) :=
  p.runFrom isTransient call wait p.maxRetries

end RetryPolicy

end Reconciliation
