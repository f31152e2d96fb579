import Letterhead.FileSystem.Problem
import Letterhead.Path
import Std.Data.ExtTreeMap

/-!
# File systems

A file system is a map from locations to nodes, with a working directory. A location is the list of
names that leads to a node from the root, without links and dots, so every node has one location.
The root is a directory that is always there, with bits that stay. The map is extensional: two file
systems with the same nodes at the same locations are equal.

All nodes belong to the user at work, who is not the superuser. So what the user may do is told by
the owner's bits alone, and nothing is permitted against them.

## Main definitions

* `Location`, `Node`, `FileSystem`
* `FileSystem.node?` — what is at a location
* `FileSystem.has` — whether a node of some sort is at a location
* `FileSystem.put`, `FileSystem.remove` — the file system with one node changed
* `FileSystem.entriesBelow` — everything that is listed below a directory
-/

namespace Letterhead

/-- A place in the tree: the names that lead there from the root. A name is a string, so one that a
disk holds in bytes that are no UTF-8 has no place here. -/
abbrev Location := List String

/-- What can be at a location. It belongs to the user at work, who is not the superuser. -/
inductive Node
  /-- A regular file with its permission bits and its content. -/
  | file (mode : Nat) (bytes : List UInt8)
  /-- A directory with its permission bits. -/
  | directory (mode : Nat)
  /-- A symbolic link with the text it stands for. -/
  | link (target : String)
  deriving DecidableEq, Repr

namespace Node

/-- A regular file. -/
def isFile : Node → Bool
  | file _ _ => true
  | _ => false

/-- A regular file that the user may read. -/
def isReadableFile : Node → Bool
  | file mode _ => mode.testBit 8
  | _ => false

/-- A regular file that the user may write. -/
def isWritableFile : Node → Bool
  | file mode _ => mode.testBit 7
  | _ => false

/-- A directory. -/
def isDirectory : Node → Bool
  | directory _ => true
  | _ => false

/-- A directory in which the user may look names up. -/
def isSearchable : Node → Bool
  | directory mode => mode.testBit 6
  | _ => false

/-- A directory of which the user may list the names. -/
def isListable : Node → Bool
  | directory mode => mode.testBit 8
  | _ => false

/-- A directory in which the user may make and remove nodes. -/
def isChangeable : Node → Bool
  | directory mode => mode.testBit 7 && mode.testBit 6
  | _ => false

/-- A node that the user may take into another directory. Of a directory the parent is noted in it,
so it has to be writable itself. -/
def isMovable : Node → Bool
  | directory mode => mode.testBit 7
  | _ => true

/-- A symbolic link. -/
def isLink : Node → Bool
  | link _ => true
  | _ => false

/-- The permission bits of a node. All that a link has are set. -/
def mode : Node → Nat
  | file mode _ => mode
  | directory mode => mode
  | link _ => 0o777

theorem isDirectory_of_isSearchable {node : Node} (h : node.isSearchable) : node.isDirectory := by
  cases node with
  | directory => rfl
  | file | link => cases h

theorem isDirectory_of_isListable {node : Node} (h : node.isListable) : node.isDirectory := by
  cases node with
  | directory => rfl
  | file | link => cases h

theorem isFile_eq_false_of_isDirectory {node : Node} (h : node.isDirectory) :
    node.isFile = false := by
  cases node with
  | directory => rfl
  | file | link => cases h

theorem isSearchable_of_isChangeable {node : Node} (h : node.isChangeable) : node.isSearchable := by
  cases node with
  | directory => exact (Bool.and_eq_true _ _ ▸ h).2
  | file | link => cases h

end Node

/-- A tree of nodes and the directory that relative paths start from. -/
structure FileSystem where
  nodes : Std.ExtTreeMap Location Node
  workingDirectory : Location

namespace FileSystem

/-- The permission bits of a directory that has just been made, and of the root. -/
def newDirectoryMode : Nat := 0o755

/-- The node at a location. -/
def node? (fs : FileSystem) : Location → Option Node
  | [] => some (.directory newDirectoryMode)
  | place => fs.nodes[place]?

/-- Whether a node of some sort is at a location. -/
def has (fs : FileSystem) (sort : Node → Bool) (place : Location) : Bool :=
  (fs.node? place).any sort

/-- The file system with `node` at `place`. -/
def put (fs : FileSystem) (place : Location) (node : Node) : FileSystem :=
  { fs with nodes := fs.nodes.insert place node }

/-- The file system with nothing at `place`. -/
def remove (fs : FileSystem) (place : Location) : FileSystem :=
  { fs with nodes := fs.nodes.erase place }

@[simp] theorem node?_nil (fs : FileSystem) :
    fs.node? [] = some (.directory newDirectoryMode) := rfl

theorem node?_of_ne_nil (fs : FileSystem) {place : Location} (h : place ≠ []) :
    fs.node? place = fs.nodes[place]? := by
  cases place with
  | nil => exact absurd rfl h
  | cons => rfl

theorem node?_put (fs : FileSystem) {place other : Location} (node : Node) (h : place ≠ []) :
    (fs.put place node).node? other = if place = other then some node else fs.node? other := by
  cases other with
  | nil => simp [h]
  | cons a as => simp [node?, put, Std.ExtTreeMap.getElem?_insert]

theorem node?_remove (fs : FileSystem) {place other : Location} (h : place ≠ []) :
    (fs.remove place).node? other = if place = other then none else fs.node? other := by
  cases other with
  | nil => simp [h]
  | cons a as => simp [node?, remove, Std.ExtTreeMap.getElem?_erase]

theorem has_of_node? {fs : FileSystem} {place : Location} {node : Node}
    (h : fs.node? place = some node) (sort : Node → Bool) : fs.has sort place = sort node := by
  rw [has, h, Option.any_some]

theorem not_has_of_node? {fs : FileSystem} {place : Location} {node : Node} {sort : Node → Bool}
    (h : fs.node? place = some node) (hnode : sort node = false) : ¬ fs.has sort place := by
  rw [has_of_node? h, hnode]
  exact Bool.false_ne_true

theorem not_has_of_none {fs : FileSystem} {place : Location} (h : fs.node? place = none)
    (sort : Node → Bool) : ¬ fs.has sort place := by
  rw [has, h]
  exact Bool.false_ne_true

theorem has_eq_true_iff {fs : FileSystem} {place : Location} {sort : Node → Bool} :
    fs.has sort place = true ↔ ∃ node, fs.node? place = some node ∧ sort node = true := by
  rw [has, Option.any_eq_true]

/-- A node of one sort is one of another, if the first sort is part of the other. -/
theorem has_mono {fs : FileSystem} {place : Location} {sort sort' : Node → Bool}
    (hsort : ∀ {node}, sort node → sort' node) (h : fs.has sort place) : fs.has sort' place := by
  obtain ⟨node, hnode, hnode'⟩ := has_eq_true_iff.mp h
  exact has_eq_true_iff.mpr ⟨node, hnode, hsort hnode'⟩

/-- Whether a listing of what is below the directory at `place` comes to the names of `path`. All
directories before the last name are listed. Each is opened by its name, so those above it have to
be searchable; the last one need not be. -/
def lists (fs : FileSystem) (place : Location) (path : List String) : Bool :=
  (List.range path.length).all fun count =>
    fs.has Node.isListable (place ++ path.take count) &&
      (count + 1 == path.length || fs.has Node.isSearchable (place ++ path.take count))

/-- Everything that is listed below a directory, by the names that lead there from it, in the order
of these lists of names. Links are not followed, and what is below a directory that may not be
listed is left out. -/
def entriesBelow (fs : FileSystem) (place : Location) : List (List String) :=
  fs.nodes.keys.filterMap fun other =>
    match place.isPrefixOf? other with
    | some path => if path ≠ [] ∧ fs.lists place path then some path else none
    | none => none

end FileSystem

end Letterhead
