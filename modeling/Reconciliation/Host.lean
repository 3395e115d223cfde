/-
# What a command needs of its surroundings

A command reads files, keeps databases and asks for the time.  It gets all of this as a record
of actions, so that the same command works on a disk and in memory.

* `MemoryHost`: files and databases in memory, and its actions `MemoryHost.host`.
-/
import Reconciliation.Database
import Reconciliation.Path

namespace Reconciliation

/-! ## 1. Actions -/

/-- The actions that commands are made of.  An action that fails says why. -/
structure Host (m : Type → Type) where
  readText : String → m (Except String String)
  /-- Opens a database; one that is not there yet is made. -/
  openDatabase : String → m (Except String Database)
  writeDatabase : String → Database → m Unit
  /-- Makes sure that a file can be added to. -/
  openLog : String → m (Except String Unit)
  now : m Instant
  /-- A number that no session has had. -/
  sessionNumber : m Nat
  /-- Ids that no record has had, one for each change of a batch. -/
  recordIds : m (Nat → Uuid)

/-! ## 2. Files in memory -/

inductive FileContent
  | text (s : String)
  | database (d : Database)

/-- The files of one directory and a clock. -/
structure MemoryHost where
  /-- The path of the directory. -/
  root : String
  files : SortedMap String FileContent
  /-- The time, in hours since some start. -/
  clock : Nat
  sessions : Nat
  /-- How often ids for the records of a batch were drawn. -/
  batches : Nat

namespace MemoryHost

/-- The reason for a missing file. -/
def missing : String := "No such file or directory (os error 2)"

/-- The reason for a directory in place of a file. -/
def isADirectory : String := "Is a directory (os error 21)"

/-- The reason for a path that goes on below a file. -/
def notADirectory : String := "Not a directory (os error 20)"

/-- The key of a path: its parts below the directory. -/
def resolve (root path : String) : String :=
  let inside :=
    if path.startsWith (root ++ "/") then (path.drop (root.length + 1)).toString else path
  "/".intercalate (Path.parts inside)

def ofTexts (root : String) (texts : List (String × String)) : MemoryHost :=
  { root, clock := 0, sessions := 0, batches := 0
    files := .ofList (texts.map fun (path, s) => (resolve root path, .text s)) }

/-- Whether files lie below a key. -/
def isDirectory (h : MemoryHost) (key : String) : Bool :=
  key = "" || h.files.keys.any (·.startsWith (key ++ "/"))

/-- Whether a key goes on below a file. -/
def isBelowFile (h : MemoryHost) (key : String) : Bool :=
  h.files.keys.any fun file => key.startsWith (file ++ "/")

/-- Why there is no file at a key that has none. -/
def reasonFor (h : MemoryHost) (key : String) : String :=
  if h.isDirectory key then isADirectory
  else if h.isBelowFile key then notADirectory
  else missing

def find? (h : MemoryHost) (path : String) : Option FileContent :=
  h.files.get? (resolve h.root path)

def put (h : MemoryHost) (path : String) (content : FileContent) : MemoryHost :=
  { h with files := h.files.insert (resolve h.root path) content }

def readText (path : String) : StateM MemoryHost (Except String String) := do
  match (← get).find? path with
  | some (.text s) => return .ok s
  | some (.database _) => return .error "stream did not contain valid UTF-8"
  | none =>
    let h ← get
    return .error (h.reasonFor (resolve h.root path))

def openDatabase (path : String) : StateM MemoryHost (Except String Database) := do
  let h ← get
  match h.find? path with
  | some (.database d) => return .ok d
  | some (.text "") => return .ok .empty
  | some (.text _) => return .error "file is not a database"
  | none =>
    let key := resolve h.root path
    if h.isDirectory key || h.files.contains (Path.directory key) then
      return .error s!"unable to open database file: {path}"
    else if h.isBelowFile key then return .error notADirectory
    else
      set (h.put path (.database .empty))
      return .ok .empty

def openLog (path : String) : StateM MemoryHost (Except String Unit) := do
  let h ← get
  let key := resolve h.root path
  if path = "" then return .error missing
  else if h.isDirectory key || h.isBelowFile key then return .error (h.reasonFor key)
  else
    if (h.find? path).isNone then set (h.put path (.text ""))
    return .ok ()

/-- The instant of an hour. -/
def timeOf (clock : Nat) : Instant :=
  Instant.epoch.addNanos (clock * 3600000000000)

/-- The actions in memory.  The clock moves on whenever it is read. -/
def host : Host (StateM MemoryHost) where
  readText := readText
  openDatabase := openDatabase
  writeDatabase path d := modify (·.put path (.database d))
  openLog := openLog
  now := modifyGet fun h => (timeOf h.clock, { h with clock := h.clock + 1 })
  sessionNumber := modifyGet fun h => (h.sessions, { h with sessions := h.sessions + 1 })
  recordIds := modifyGet fun h => (.stamped h.batches, { h with batches := h.batches + 1 })

end MemoryHost

end Reconciliation
