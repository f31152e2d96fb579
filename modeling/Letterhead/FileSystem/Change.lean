import Letterhead.FileSystem.Lookup

/-!
# Reading and changing files

The operations on a file system. Each is a function of the file system: it gives a value or another
file system, or it is refused, and then nothing has changed.

## Main definitions

* `FileSystem.read`, `FileSystem.write`, `FileSystem.unlink`, `FileSystem.makeDirectory`
* `FileSystem.move`, `FileSystem.rename` — a node, with all below it, at another location
* `FileSystem.copyMode` — the permission bits of one node given to another
-/

namespace Letterhead.FileSystem

/-- The permission bits of a file that has just been made. -/
def newFileMode : Nat := 0o644

/-- Whether a node may be made at a location, or taken away from there. -/
def permitsChange (fs : FileSystem) (place : Location) : Bool :=
  fs.has Node.isChangeable place.dropLast

/-- The content of a file. -/
def read (fs : FileSystem) (path : Path) : Except Problem (List UInt8) :=
  match fs.find .target path with
  | .error problem => .error problem
  | .ok (_, .file mode bytes) =>
    if (Node.file mode bytes).isReadableFile then .ok bytes else .error .permissionDenied
  -- A directory is opened like a file, and only then found to be none.
  | .ok (_, node) => .error (if node.isListable then .isDirectory else .permissionDenied)

/-- The bits of a file after it has been written: it no longer runs as its user, nor as its group if
the group may run it. -/
def writtenMode (mode : Nat) : Nat :=
  let plain := if mode.testBit 11 then mode - 0o4000 else mode
  if mode.testBit 10 && mode.testBit 3 then plain - 0o2000 else plain

/-- The file system after a file has been given a content. A file that is there keeps its
permissions; where there is nothing, a file is made. -/
def write (fs : FileSystem) (path : Path) (bytes : List UInt8) : Except Problem FileSystem :=
  match fs.locate .file path with
  | .error problem => .error problem
  | .ok place =>
    match fs.node? place with
    | some (.file mode old) =>
      if (Node.file mode old).isWritableFile then
        .ok (fs.put place (.file (writtenMode mode) bytes))
      else .error .permissionDenied
    | some _ => .error .isDirectory
    | none =>
      if fs.permitsChange place then .ok (fs.put place (.file newFileMode bytes))
      else .error .permissionDenied

/-- The file system without the file or link at a path. -/
def unlink (fs : FileSystem) (path : Path) : Except Problem FileSystem :=
  match fs.find .entry path with
  | .error problem => .error problem
  | .ok (place, node) =>
    if path.endsInDots then .error .isDirectory
    else if ¬ fs.permitsChange place then .error .permissionDenied
    else if node.isDirectory then .error .isDirectory
    else .ok (fs.remove place)

/-- The file system with a new directory at a path. -/
def makeDirectory (fs : FileSystem) (path : Path) : Except Problem FileSystem :=
  match fs.locate .entry path with
  | .error problem => .error problem
  | .ok place =>
    match fs.node? place with
    | some _ => .error .alreadyExists
    | none =>
      if fs.permitsChange place then .ok (fs.put place (.directory newDirectoryMode))
      else .error .permissionDenied

/-- Whether there is anything below a location. -/
def hasEntries (fs : FileSystem) (place : Location) : Bool :=
  fs.nodes.keys.any fun other => place.isPrefixOf other && place != other

/-- The file system with the node at `source`, and all below it, at `target` instead. -/
def move (fs : FileSystem) (source target : Location) (node : Node) : FileSystem :=
  -- First the node itself; what is below a directory comes after it.
  let above := (fs.remove source).put target node
  if node.isDirectory then
    fs.nodes.toList.foldl
      (fun (moved : FileSystem) (entry : Location × Node) =>
        match source.isPrefixOf? entry.1 with
        | some (name :: rest) => (moved.remove entry.1).put (target ++ name :: rest) entry.2
        | _ => moved)
      above
  else above

/-- Why the node at `source` may not take the place of what is at `target`. Both parents have to be
changeable. A directory replaces an empty directory only, anything else replaces anything but a
directory. -/
def refusesMove (fs : FileSystem) (source target : Location) (node : Node) : Option Problem :=
  if node.isDirectory && source.isPrefixOf target then some .invalidArgument
  else if target.isPrefixOf source then some .notEmpty
  else if ¬ (fs.permitsChange source ∧ fs.permitsChange target) then some .permissionDenied
  else if node.isDirectory then
    if fs.has (!·.isDirectory) target then some .notDirectory
    else if source.dropLast ≠ target.dropLast ∧ !node.isMovable then some .permissionDenied
    else if fs.has Node.isDirectory target && fs.hasEntries target then some .notEmpty
    else none
  else if fs.has Node.isDirectory target then some .isDirectory
  else none

/-- The file system after what is at `source` has taken the place of what is at `target`, neither
link followed. Onto itself a node moves without effect. -/
def rename (fs : FileSystem) (source target : Path) : Except Problem FileSystem :=
  match fs.locate .entry source, fs.locate .entry target with
  | .error problem, _ => .error problem
  | _, .error problem => .error problem
  | .ok old, .ok new =>
    if source.endsInDots || target.endsInDots then .error .busy
    else
      match fs.node? old with
      | none => .error .noEntry
      | some node =>
        if old = new then .ok fs
        else
          match fs.refusesMove old new node with
          | some problem => .error problem
          | none => .ok (fs.move old new node)

/-- The file system with other permission bits at a location. The root keeps its own. -/
def withMode (fs : FileSystem) (place : Location) (mode : Nat) : FileSystem :=
  match place, fs.node? place with
  | _ :: _, some (.file _ bytes) => fs.put place (.file mode bytes)
  | _ :: _, some (.directory _) => fs.put place (.directory mode)
  | _, _ => fs

/-- The file system after what is at `target` has been given the bits of what is at `source`. -/
def copyMode (fs : FileSystem) (source target : Path) : Except Problem FileSystem :=
  match fs.find .target source, fs.find .target target with
  | .error problem, _ => .error problem
  | _, .error problem => .error problem
  | .ok (_, node), .ok (place, _) => .ok (fs.withMode place node.mode)

/-- The file system after what is at a path has been given permission bits. -/
def setMode (fs : FileSystem) (path : Path) (mode : Nat) : Except Problem FileSystem :=
  match fs.find .target path with
  | .error problem => .error problem
  | .ok (place, _) => .ok (fs.withMode place mode)

/-- The path from the root to what a path denotes, without links. -/
def realPath (fs : FileSystem) (path : Path) : Except Problem Path :=
  match fs.locate .target path with
  | .error problem => .error problem
  | .ok place => .ok ⟨.root, place⟩

/-- The file system with directories at all the locations above `place` where nothing is. -/
def makeParents (fs : FileSystem) (place : Location) : FileSystem :=
  (List.range place.length).foldl
    (fun (made : FileSystem) count =>
      if (made.node? (place.take count)).isNone then
        made.put (place.take count) (.directory newDirectoryMode)
      else made)
    fs

/-- The file system without a location and all below it. -/
def removeTree (fs : FileSystem) (place : Location) : FileSystem :=
  { fs with nodes := fs.nodes.filter fun other _ => !place.isPrefixOf other }

/-- A file system that holds nothing but the working directory and those above it. -/
def empty (workingDirectory : Location) : FileSystem :=
  (makeParents ⟨∅, workingDirectory⟩ workingDirectory).put workingDirectory
    (.directory newDirectoryMode)

end Letterhead.FileSystem
