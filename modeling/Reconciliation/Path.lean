/-
# Paths of files

A path is a text whose parts are divided by slashes.

* `Path.parts`: what a path leads through, without detours;
* `Path.stem`: the name of a file without its last ending.
-/

namespace Reconciliation
namespace Path

/-- One part more: nothing and a single dot stay, two dots go back.  The parts are reversed. -/
def enter (parts : List String) (part : String) : List String :=
  if part = "" ∨ part = "." then parts
  else if part = ".." then parts.tail
  else part :: parts

/-- What a path leads through. -/
def parts (path : String) : List String :=
  (((path.toList.splitOn '/').map String.ofList).foldl enter []).reverse

/-- The directory that a file lies in. -/
def directory (path : String) : String :=
  "/".intercalate (((path.toList.splitOn '/').map String.ofList).dropLast)

/-- The last part of a path, unless it leads back. -/
def fileName? (path : String) : Option String :=
  let named := ((path.toList.splitOn '/').map String.ofList).filter fun p => p ≠ "" ∧ p ≠ "."
  named.getLast?.filter (· ≠ "..")

/-- A name up to its last dot; one that only begins with a dot stays whole. -/
def withoutEnding (name : String) : String :=
  let cs := name.toList
  let front := (cs.reverse.dropWhile (· ≠ '.')).tail.reverse
  if front = [] then name else String.ofList front

/-- The name of a file without its last ending. -/
def stem? (path : String) : Option String := (fileName? path).map withoutEnding

end Path
end Reconciliation
