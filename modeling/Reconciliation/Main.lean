/-
# The program

Commands on the files of a disk.  This is the only module that acts; what a line means and what a
command does is settled elsewhere.
-/
import Reconciliation.CommandLine
import Std.Time.DateTime.Timestamp

namespace Reconciliation
namespace Disk

/-- Why a file cannot be used. -/
def reasonOf : IO.Error → String
  | .noFileOrDirectory .. => "No such file or directory (os error 2)"
  | .permissionDenied .. => "Permission denied (os error 13)"
  | e => toString e

/-- The result of an action, or the reason for which it failed. -/
def attempt (action : IO α) : IO (Except String α) := do
  match ← action.toBaseIO with
  | .ok a => return .ok a
  | .error e => return .error (reasonOf e)

/-- Makes the directory of a file. -/
def makeDirectory (path : String) : IO Unit := do
  let directory := Path.directory path
  if directory ≠ "" then IO.FS.createDirAll directory

def openDatabase (path : String) : IO (Except String Database) := do
  makeDirectory path
  IO.FS.withFile path .append fun _ => pure ()
  match Database.ofText? (← IO.FS.readFile path) with
  | some d => return .ok d
  | none => return .error "file is not a database"

def openLog (path : String) : IO Unit := do
  makeDirectory path
  IO.FS.withFile path .append fun _ => pure ()

/-- The instant that the clock shows. -/
def now : IO Instant := do
  let nanos := (← Std.Time.Timestamp.now).toNanosecondsSinceUnixEpoch.val
  return Instant.epoch.addNanos nanos

/-- A random number of 64 bits. -/
def randomNumber : IO Nat := do
  let bytes ← IO.getRandomBytes 8
  return bytes.toList.foldl (fun n b => n * 256 + b.toNat) 0

def host : Host IO where
  readText path := attempt (IO.FS.readFile path)
  openDatabase path := do return (← attempt (openDatabase path)).bind id
  writeDatabase path d := IO.FS.writeFile path d.toText
  openLog path := attempt (openLog path)
  now := now
  sessionNumber := randomNumber
  recordIds := do return .stamped (← randomNumber)

/-- The variables of the environment. -/
def vars : IO (List (String × String)) := do
  match ← attempt (IO.FS.readBinFile "/proc/self/environ") with
  | .error _ => return []
  | .ok bytes =>
    let entries := ((String.fromUTF8? bytes).getD "").toList.splitOn '\x00'
    return entries.map fun cs =>
      (String.ofList (cs.takeWhile (· ≠ '=')), String.ofList (cs.dropWhile (· ≠ '=')).tail)

/-- Performs a command, again and again if it is one that goes on. -/
partial def perform (environment : String) (c : Command) : IO UInt32 := do
  let outcome ← c.run host environment (← vars)
  if let some j := outcome.output then IO.println j.pretty
  match outcome.failure, outcome.pause with
  | some failure, _ =>
    IO.eprintln failure.report
    return failure.code.toUInt32
  | none, none => return 0
  | none, some pause =>
    IO.sleep (min pause.millis (shortWordCount - 1)).toUInt32
    perform environment c

end Disk
end Reconciliation

open Reconciliation in
def main (arguments : List String) : IO UInt32 := do
  match CommandLine.parse arguments with
  | .usage =>
    IO.eprintln CommandLine.usageText
    return 2
  | .information .help =>
    IO.println CommandLine.usageText
    return 0
  | .information .version =>
    IO.println CommandLine.versionText
    return 0
  | .invocation (environment, c) => Disk.perform environment c
