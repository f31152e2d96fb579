import Letterhead.Fault
import Letterhead.FileSystem.Change

/-!
# Sessions

The work of the tool is a computation on a session: a file system and the journal of what has been
remarked on the way. A computation that stops on a fault keeps the session as it is then, so what
had been changed stays changed unless it is put back.

## Main definitions

* `Session`, `SessionM` — the state, and computations on it
* `Session.record`, `debug`, `info`, `warn`, `fail` — lines of the journal
* `readFile`, `writeFile`, `replaceFile`, … — the file operations, with their faults
-/

namespace Letterhead

/-- How much a line of the journal matters. -/
inductive Level
  | debug
  | info
  | warning
  | error
  deriving DecidableEq, Repr

namespace Level

/-- The word for a level. -/
def label : Level → String
  | debug => "DEBUG"
  | info => "INFO"
  | warning => "WARNING"
  | error => "ERROR"

/-- The place of a level among the others. -/
def rank : Level → Nat
  | debug => 0
  | info => 1
  | warning => 2
  | error => 3

end Level

/-- A line of the journal. -/
structure JournalLine where
  level : Level
  message : Text
  deriving DecidableEq, Repr

/-- A file system and the journal so far, oldest line first. -/
structure Session where
  files : FileSystem
  journal : List JournalLine

/-- A computation on a session that may stop on a fault. -/
abbrev SessionM (α : Type) := ExceptT Fault (StateM Session) α

namespace Session

/-- The session with one more line in its journal. -/
def record (s : Session) (level : Level) (message : Text) : Session :=
  { s with journal := s.journal ++ [⟨level, message⟩] }

end Session

/-- Add a line to the journal. -/
def note (level : Level) (message : Text) : SessionM Unit :=
  modify fun s => s.record level message

/-- A question to the file system about a path. -/
def ask {α : Type} (path : Path) (question : FileSystem → Path → Except Problem α) :
    SessionM α := do
  let s ← get
  match question s.files path with
  | .ok answer => pure answer
  | .error problem => throw (.file ⟨problem, path.toString, none⟩)

/-- A question that cannot even be put for a path with a character that no name can have. -/
def askNamed {α : Type} (path : Path) (question : FileSystem → Path → Except Problem α) :
    SessionM α :=
  if path.hasNul then throw .embeddedNul else ask path question

/-- An operation on the file at a path. -/
def change (path : Path) (operation : FileSystem → Path → Except Problem FileSystem) :
    SessionM Unit := do
  let files ← askNamed path operation
  modify fun s => { s with files }

/-- An operation on the files at two paths. -/
def changeBoth (first second : Path)
    (operation : FileSystem → Path → Path → Except Problem FileSystem) : SessionM Unit := do
  if first.hasNul || second.hasNul then throw .embeddedNul
  let s ← get
  match operation s.files first second with
  | .ok files => set { s with files }
  | .error problem => throw (.file ⟨problem, first.toString, some second.toString⟩)

/-- Whether there is anything at a path. -/
def holdsNode (path : Path) : SessionM Bool := ask path FileSystem.holds

/-- Whether a path itself is a symbolic link. -/
def isLinkPath (path : Path) : SessionM Bool := ask path FileSystem.isLink

/-- Whether a path denotes a directory. -/
def isDirectoryPath (path : Path) : SessionM Bool := ask path FileSystem.isDirectory

/-- The bytes of the file at a path. -/
def readFile (path : Path) : SessionM (List UInt8) := askNamed path FileSystem.read

/-- Give a content to the file at a path. -/
def writeFile (path : Path) (bytes : List UInt8) : SessionM Unit :=
  change path fun fs p => fs.write p bytes

/-- Remove the file or link at a path. -/
def unlinkFile (path : Path) : SessionM Unit := change path FileSystem.unlink

/-- Make a directory at a path. -/
def makeDirectoryAt (path : Path) : SessionM Unit := change path FileSystem.makeDirectory

/-- Move what is at one path over what is at another. -/
def replaceFile (source target : Path) : SessionM Unit :=
  changeBoth source target FileSystem.rename

/-- Give the file at one path the permission bits of the file at another. -/
def copyFileMode (source target : Path) : SessionM Unit :=
  changeBoth source target FileSystem.copyMode

/-- The path, free of links, of what a path denotes. -/
def resolvePath (path : Path) : SessionM Path := askNamed path FileSystem.realPath

end Letterhead
