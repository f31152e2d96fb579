import Letterhead.FileSystem.Basic

/-!
# Looking up a path

A look-up follows the names of a path one after the other, each from a directory that may be
searched. Double dots lead to the parent. A symbolic link is replaced by the names it stands for; at
most forty links are followed on the way. What becomes of the last name depends on the aim of the
look-up.

## Main definitions

* `FileSystem.Aim` — what is looked up
* `FileSystem.locate` — the location that a path denotes, whether or not something is there
* `FileSystem.find` — the node that a path denotes
-/

namespace Letterhead.FileSystem

/-- The greatest number of bytes in a name. -/
def nameLimit : Nat := 255

/-- The number of bytes that a path must stay below. -/
def pathLimit : Nat := 4096

/-- The number of links that one look-up follows. -/
def linkLimit : Nat := 40

/-- What is looked up. -/
inductive Aim
  /-- The entry itself, though it be a link. -/
  | entry
  /-- What the entry leads to. -/
  | target
  /-- A file to write, which may not be there yet. A slash behind a name asks for a directory. -/
  | file
  deriving DecidableEq, Repr

/-- Whether a link in last place is followed. -/
def Aim.followsLast : Aim → Bool
  | entry => false
  | target | file => true

/-- Follow names from the directory `here`. `expand` goes on from a directory with the names that a
link stands for put in front of the remaining ones. A last name with nothing there is a location
too, where something may be made. -/
def walk (fs : FileSystem) (aim : Aim)
    (expand : Location → List String → Except Problem Location) :
    Location → List String → Except Problem Location
  | here, [] => .ok here
  | here, name :: rest =>
    if ¬ fs.has Node.isDirectory here then .error .notDirectory
    -- An empty name comes of a slash too many, and nothing is looked up for it.
    else if name = "" then walk fs aim expand here rest
    else if ¬ fs.has Node.isSearchable here then .error .permissionDenied
    else if name = "." then walk fs aim expand here rest
    else if name = ".." then walk fs aim expand here.dropLast rest
    else if aim = .file ∧ rest ≠ [] ∧ rest.all (· == "") then .error .isDirectory
    else if nameLimit < name.utf8ByteSize then .error .nameTooLong
    else
      match fs.node? (here ++ [name]) with
      | some (.link target) =>
        -- A trailing slash leaves an empty name behind, so such a link is followed.
        if rest = [] ∧ !aim.followsLast then .ok (here ++ [name])
        else
          expand (if (Path.anchorOf target.toList) = .relative then here else [])
            (slashPieces target ++ rest)
      | some _ => walk fs aim expand (here ++ [name]) rest
      | none => if rest = [] then .ok (here ++ [name]) else .error .noEntry

/-- Follow names from a directory, through so many links at most. -/
def follow (fs : FileSystem) (aim : Aim) :
    Nat → Location → List String → Except Problem Location
  | 0 => walk fs aim fun _ _ => .error .tooManyLinks
  | links + 1 => walk fs aim (follow fs aim links)

/-- The location that a path denotes. -/
def locate (fs : FileSystem) (aim : Aim) (path : Path) : Except Problem Location :=
  if pathLimit ≤ path.toString.utf8ByteSize then .error .nameTooLong
  else
    fs.follow aim linkLimit
      (if path.anchor = .relative then fs.workingDirectory else []) path.steps

/-- The location that a path denotes and the node that is there. -/
def find (fs : FileSystem) (aim : Aim) (path : Path) : Except Problem (Location × Node) :=
  match fs.locate aim path with
  | .error problem => .error problem
  | .ok place =>
    match fs.node? place with
    | some node => .ok (place, node)
    | none => .error .noEntry

/-- Whether a path denotes a node of some sort. A path at which nothing is denotes none; any other
problem is passed on. -/
def test (fs : FileSystem) (aim : Aim) (sort : Node → Bool) (path : Path) :
    Except Problem Bool :=
  if path.hasNul then .ok false
  else
    match fs.find aim path with
    | .ok (_, node) => .ok (sort node)
    | .error problem => if problem.meansAbsent then .ok false else .error problem

/-- Whether there is anything at a path, links followed. -/
def holds (fs : FileSystem) (path : Path) : Except Problem Bool :=
  fs.test .target (fun _ => true) path

/-- Whether a path itself is a symbolic link. -/
def isLink (fs : FileSystem) (path : Path) : Except Problem Bool :=
  fs.test .entry Node.isLink path

/-- Whether a path denotes a regular file, links followed. -/
def isFile (fs : FileSystem) (path : Path) : Except Problem Bool :=
  fs.test .target Node.isFile path

/-- Whether a path denotes a directory, links followed. -/
def isDirectory (fs : FileSystem) (path : Path) : Except Problem Bool :=
  fs.test .target Node.isDirectory path

end Letterhead.FileSystem
