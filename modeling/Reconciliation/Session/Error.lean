/-
# What can go wrong around a session
-/
import Reconciliation.Connector.Error
import Reconciliation.Session.Basic
import Reconciliation.Time.Span

namespace Reconciliation

inductive ReconciliationError
  /-- A call to an exchange that gave no answer. -/
  | connectivity (exchange : ExchangeId) (cause : ConnectorError)
  /-- A report of a session that is not over. -/
  | unfinishedReport (id : Uuid) (status : SessionStatus)
  | configuration (fault : ConfigurationFault)
  | cancelled
  /-- A second report for a session. -/
  | alreadyStored (id : Uuid)
  | storage (reason : String)
  | ledger (cause : LedgerError)
  | ledgerTimeout (limit : Span)
  deriving DecidableEq

def ReconciliationError.message : ReconciliationError → String
  | .connectivity exchange cause => s!"connectivity failure on {exchange}: {cause.message}"
  | .unfinishedReport id status =>
    s!"data integrity violation: report for session {id} is still {status.name}"
  | .configuration fault => s!"invalid configuration: {fault.message}"
  | .cancelled => "reconciliation cancelled"
  | .alreadyStored id => s!"report storage error: a report for session {id} is already stored"
  | .storage reason => s!"report storage error: {reason}"
  | .ledger cause => cause.message
  | .ledgerTimeout limit => s!"ledger read timed out after {limit.toText}"

end Reconciliation
