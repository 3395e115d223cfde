/-
# Failures of connector calls

* `ConnectorError.isTransient`: whether a call is worth repeating.
-/

namespace Reconciliation

inductive ConnectorErrorKind
  | transport
  | timeout
  | rateLimited
  | authentication
  | serialization
  | exchange
  | other
  deriving DecidableEq, Repr

namespace ConnectorErrorKind

def all : List ConnectorErrorKind :=
  [.transport, .timeout, .rateLimited, .authentication, .serialization, .exchange, .other]

/-- The name in records. -/
def name : ConnectorErrorKind → String
  | .transport => "Transport"
  | .timeout => "Timeout"
  | .rateLimited => "RateLimited"
  | .authentication => "Authentication"
  | .serialization => "Serialization"
  | .exchange => "Exchange"
  | .other => "Other"

def ofName? (n : String) : Option ConnectorErrorKind := all.find? (·.name = n)

/-- How a message of the kind starts. -/
def lead : ConnectorErrorKind → String
  | .transport => "transport error"
  | .timeout => "request timed out"
  | .rateLimited => "rate limited"
  | .authentication => "authentication failed"
  | .serialization => "serialization error"
  | .exchange => "exchange error"
  | .other => "unexpected error"

end ConnectorErrorKind

/-- Why a call to an exchange gave no answer. -/
structure ConnectorError where
  kind : ConnectorErrorKind
  reason : String
  deriving DecidableEq, Repr

namespace ConnectorError

/-- The error of a kind that is given by name. -/
def ofName? (kind reason : String) : Option ConnectorError :=
  (ConnectorErrorKind.ofName? kind).map (⟨·, reason⟩)

def message (e : ConnectorError) : String := e.kind.lead ++ ": " ++ e.reason

/-- Whether a repeated call may succeed. -/
def isTransient (e : ConnectorError) : Bool :=
  match e.kind with
  | .transport => true
  | .timeout => true
  | .rateLimited => true
  | .authentication => false
  | .serialization => false
  | .exchange => false
  | .other => false

end ConnectorError

end Reconciliation
