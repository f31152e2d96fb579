import Letterhead.Config
import Letterhead.Session
import Letterhead.Text.Lowercase

/-!
# Discovery

The paths of a batch are turned into targets in the order given. A directory stands for the files
below it that have one of the wanted suffixes, links left out, as far as the user may list and search
the directories on the way; any other path stands for itself. Whatever belongs to version control is
left out, and no target is visited twice.

The search goes on while targets are visited: a directory is listed when its turn comes, and a file
is looked at when it is next, in the tree as it is then.

## Main definitions

* `Target` — a path to visit, and whether it can be read
* `discover` — visit all targets of some paths
* `targets` — the targets themselves
-/

namespace Letterhead

/-- A path to visit, with the finding whether it can be read. -/
structure Target where
  path : Path
  readable : Bool
  deriving DecidableEq, Repr

/-- Whether a part of a path is among the ignored names. -/
def hasIgnoredPart (ignored : List String) (path : Path) : Bool := path.parts.any ignored.contains

namespace FileSystem

/-- Whether a path is known to denote a regular file that may be read. -/
def isReadable (fs : FileSystem) (path : Path) : Bool :=
  match fs.test .target Node.isReadableFile path with
  | .ok found => found
  | .error _ => false

/-- Whether a path is known to be a regular file itself, not a link to one. -/
def isPlainFile (fs : FileSystem) (path : Path) : Bool :=
  match fs.isLink path, fs.isFile path with
  | .ok false, .ok found => found
  | _, _ => false

end FileSystem

namespace Config

/-- Whether a file has one of the wanted suffixes, upper and lower case not told apart. -/
def wantsSuffix (config : Config) (path : Path) : Bool :=
  (config.suffixes.map lowercase).contains (lowercase path.suffix)

/-- Whether what is below a directory under the given names is taken, in the present file system. -/
def admits (config : Config) (root : Path) (fs : FileSystem) (names : List String) : Bool :=
  let path := root.below names
  fs.isPlainFile path && config.wantsSuffix path && !names.any config.ignoredNames.contains

end Config

/-- How deep a directory may lie below one that is listed. The listing goes down by recursion, and
this is what the stack has room for when a batch is run by itself; further calls around the batch
take one level each. -/
def nestingLimit : Nat := 984

/-- Why a directory cannot be opened that lies below a path under the given names, apart from its
permission bits. -/
def openingFault? (root : Path) (names : List String) : Option Fault :=
  if nestingLimit < names.length then some .nestedTooDeep
  else if FileSystem.pathLimit ≤ (root.below names).toString.utf8ByteSize then
    some (.file ⟨.nameTooLong, (root.below names).toString, none⟩)
  else none

/-- Everything that is listed below a path, as lists of names, when the path denotes a directory. A
directory that may not be listed is passed over. All is listed at once, so one that cannot be opened
for another reason refuses the whole. -/
def entriesBelowPath (fs : FileSystem) (root : Path) : Except Fault (List (List String)) :=
  match fs.locate .target root with
  | .error _ => .ok []
  | .ok place =>
    let entries := fs.entriesBelow place
    let fault := entries.findSome? fun names =>
      if fs.has Node.isDirectory (place ++ names) then openingFault? root names else none
    match fault with
    | some fault => .error fault
    | none => .ok entries

/-- Visit the candidates that are admitted when their turn comes and have not been seen before. The
results come with all paths seen so far, each taken from the root. -/
def visitCandidates {α : Type} (visit : Target → SessionM α) (admitted : FileSystem → Path → Bool) :
    List Path → List Path → SessionM (List α × List Path)
  | seen, [] => pure ([], seen)
  | seen, path :: rest => do
    -- The file system is asked anew for every candidate: visits may change it.
    let s ← get
    let key := path.absolute s.files.workingDirectory
    if admitted s.files path && !seen.contains key then
      let result ← visit ⟨path, s.files.isReadable path⟩
      let (results, seen) ← visitCandidates visit admitted (key :: seen) rest
      pure (result :: results, seen)
    else
      visitCandidates visit admitted seen rest

/-- Visit the targets that one path stands for. -/
def visitPath {α : Type} (config : Config) (visit : Target → SessionM α) (seen : List Path)
    (path : Path) : SessionM (List α × List Path) := do
  if hasIgnoredPart config.ignoredNames path then
    note .debug (Text.ofString s!"{path}: version-control path, skipped")
    pure ([], seen)
  else if ← isDirectoryPath path then
    let s ← get
    match entriesBelowPath s.files path with
    | .error fault => throw fault
    | .ok entries =>
      let admitted := fun (fs : FileSystem) (candidate : Path) =>
        config.admits path fs (candidate.names.drop path.names.length)
      visitCandidates visit admitted seen (entries.map path.below)
  else
    visitCandidates visit (fun _ _ => true) seen [path]

/-- Visit the targets of some paths one after the other, when the paths in `seen` have been. -/
def discoverFrom {α : Type} (config : Config) (visit : Target → SessionM α) :
    List Path → List Path → SessionM (List α)
  | _, [] => pure []
  | seen, path :: rest => do
    let (results, seen) ← visitPath config visit seen path
    let more ← discoverFrom config visit seen rest
    pure (results ++ more)

/-- Visit all targets of some paths, in order. -/
def discover {α : Type} (config : Config) (visit : Target → SessionM α) (paths : List Path) :
    SessionM (List α) := discoverFrom config visit [] paths

/-- All targets of some paths, in order. -/
def targets (config : Config) (paths : List Path) : SessionM (List Target) :=
  discover config pure paths

end Letterhead
