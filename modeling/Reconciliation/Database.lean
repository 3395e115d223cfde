/-
# Databases

A database holds the journal of a ledger and the table of reports.  In a file it has one JSON
document a line, each a row of one of the two.

* `Database.toText`, `Database.ofText?`: both directions.
-/
import Reconciliation.Json.Printer
import Reconciliation.Json.Reader
import Reconciliation.Ledger.Journal
import Reconciliation.Session.Store

namespace Reconciliation

structure Database where
  journal : Journal
  reports : ReportTable

namespace Database

def empty : Database := ⟨.empty, .empty⟩

instance : Inhabited Database := ⟨empty⟩

/-- The rows, the reports in the order in which they were stored. -/
def toLines (d : Database) : List Json :=
  d.journal.rows.values.map (fun row => .object [("journal", row.toJson)]) ++
    d.reports.rows.reverse.map fun row => .object [("report", row.toJson)]

def toText (d : Database) : String := String.join (d.toLines.map (·.compact ++ "\n"))

/-- Adds the row of a line. -/
def addLine (d : Database) : Json → Option Database
  | .object [("journal", j)] => do
    let row ← JournalRow.ofJson? j
    return { d with journal := { d.journal with rows := d.journal.rows.insert row.sequence row } }
  | .object [("report", j)] => do
    return { d with reports := ⟨(← ReportRow.ofJson? j) :: d.reports.rows⟩ }
  | _ => none

def ofText? (s : String) : Option Database := do
  let lines := (s.toList.splitOn '\n').filter (· ≠ [])
  (← lines.mapM Json.ofChars?).foldlM addLine empty

end Database

end Reconciliation
