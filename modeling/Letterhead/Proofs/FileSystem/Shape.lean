import Letterhead.Discovery
import Letterhead.Proofs.FileSystem.Stage

/-!
# The shape of a file system

What is left of a file system when its files are emptied: the locations, what is at each, the links'
targets and the permission bits. Updates keep the shape. All that the search for targets asks
about a file system depends on its shape alone, so it finds the same before and after an update.

## Main definitions

* `FileSystem.hollow` — the file system with all its files emptied
* `FileSystem.SameShape` — two file systems differ at most in what their files hold

## Main results

* `SameShape.put` — giving a file another content keeps the shape
* `SameShape.isDirectory`, `SameShape.entriesBelowPath`, `SameShape.admits`, `SameShape.isReadable` —
  what the search for targets asks
-/

namespace Letterhead

/-- A node without what it holds. -/
def Node.hollow : Node → Node
  | .file mode _ => .file mode []
  | node => node

@[simp] theorem Node.isDirectory_hollow (node : Node) : node.hollow.isDirectory = node.isDirectory := by
  cases node <;> rfl

@[simp] theorem Node.isSearchable_hollow (node : Node) :
    node.hollow.isSearchable = node.isSearchable := by
  cases node <;> rfl

@[simp] theorem Node.isListable_hollow (node : Node) : node.hollow.isListable = node.isListable := by
  cases node <;> rfl

/-- A node that is no file is not changed by emptying files. -/
theorem Node.map_hollow_eq_some_iff {found : Option Node} {node : Node} (h : node.isFile = false) :
    found.map Node.hollow = some node.hollow ↔ found = some node := by
  constructor
  · intro hmap
    obtain ⟨other, rfl, hother⟩ := Option.map_eq_some_iff.mp hmap
    cases other with
    | file mode bytes => cases node <;> simp [Node.hollow, Node.isFile] at hother h
    | directory | link => cases node <;> simp_all [Node.hollow, Node.isFile]
  · rintro rfl
    rfl

namespace FileSystem

variable {fs fs' : FileSystem} {place other : Location} {path : Path} {aim : Aim}

/-- The file system with all its files emptied. -/
def hollow (fs : FileSystem) : FileSystem :=
  { fs with nodes := fs.nodes.map fun _ node => node.hollow }

/-- Two file systems have the same nodes in the same places, but for the bytes of files. -/
def SameShape (fs fs' : FileSystem) : Prop := fs'.hollow = fs.hollow

theorem getElem?_hollow (fs : FileSystem) (other : Location) :
    fs.hollow.nodes[other]? = fs.nodes[other]?.map Node.hollow := by
  rw [hollow, Std.ExtTreeMap.getElem?_map]

theorem node?_hollow (fs : FileSystem) (other : Location) :
    fs.hollow.node? other = (fs.node? other).map Node.hollow := by
  by_cases hother : other = []
  · subst hother
    rfl
  · rw [node?_of_ne_nil _ hother, node?_of_ne_nil _ hother, getElem?_hollow]

theorem has_hollow {sort : Node → Bool} (hsort : ∀ node : Node, sort node.hollow = sort node)
    (fs : FileSystem) (place : Location) : fs.hollow.has sort place = fs.has sort place := by
  rw [has, has, node?_hollow, Option.any_map]
  congr
  funext node
  exact hsort node

/-! ### Look-ups -/

theorem walk_hollow (fs : FileSystem) (aim : Aim)
    (expand : Location → List String → Except Problem Location) (here : Location)
    (names : List String) : fs.hollow.walk aim expand here names = fs.walk aim expand here names := by
  induction names generalizing here with
  | nil => rfl
  | cons name rest ih =>
    rw [walk, walk, ih, ih]
    -- A step asks what the directory permits that it is in, and which link it comes to.
    rw [has_hollow Node.isDirectory_hollow, has_hollow Node.isSearchable_hollow, node?_hollow]
    cases hnode : fs.node? (here ++ [name]) with
    | none => rfl
    | some node => cases node <;> simp only [Option.map_some, Node.hollow, ih]

theorem follow_hollow (fs : FileSystem) (aim : Aim) (links : Nat) :
    fs.hollow.follow aim links = fs.follow aim links := by
  induction links with
  | zero =>
    ext here names
    exact walk_hollow ..
  | succ links ih =>
    rw [follow, follow, ih]
    ext here names
    exact walk_hollow ..

theorem locate_hollow (fs : FileSystem) (aim : Aim) (path : Path) :
    fs.hollow.locate aim path = fs.locate aim path := by
  rw [locate, locate, follow_hollow]
  rfl

theorem find_hollow (fs : FileSystem) (aim : Aim) (path : Path) :
    fs.hollow.find aim path = (fs.find aim path).map fun found => (found.1, found.2.hollow) := by
  rw [find, find, locate_hollow]
  cases fs.locate aim path with
  | error problem => rfl
  | ok place =>
    simp only [node?_hollow]
    cases fs.node? place <;> rfl

theorem test_hollow {sort : Node → Bool} (hsort : ∀ node : Node, sort node.hollow = sort node)
    (fs : FileSystem) (aim : Aim) (path : Path) :
    fs.hollow.test aim sort path = fs.test aim sort path := by
  rw [test, test, find_hollow]
  cases fs.find aim path with
  | error problem => rfl
  | ok found =>
    simp only [Except.map]
    rw [hsort]

/-! ### The search for targets -/

theorem lists_hollow (fs : FileSystem) (place : Location) (names : List String) :
    fs.hollow.lists place names = fs.lists place names := by
  rw [lists, lists]
  congr
  funext count
  rw [has_hollow Node.isListable_hollow, has_hollow Node.isSearchable_hollow]

theorem entriesBelow_hollow (fs : FileSystem) (place : Location) :
    fs.hollow.entriesBelow place = fs.entriesBelow place := by
  rw [entriesBelow, entriesBelow]
  have hkeys : fs.hollow.nodes.keys = fs.nodes.keys := by rw [hollow, Std.ExtTreeMap.keys_map]
  rw [hkeys]
  congr
  funext other
  simp only [lists_hollow]

theorem entriesBelowPath_hollow (fs : FileSystem) (root : Path) :
    entriesBelowPath fs.hollow root = entriesBelowPath fs root := by
  rw [entriesBelowPath, entriesBelowPath, locate_hollow]
  cases fs.locate .target root with
  | error problem => rfl
  | ok place => simp only [entriesBelow_hollow, has_hollow Node.isDirectory_hollow]

namespace SameShape

variable (h : SameShape fs fs')

theorem refl (fs : FileSystem) : SameShape fs fs := rfl

include h

theorem symm : SameShape fs' fs := Eq.symm h

theorem trans {fs'' : FileSystem} (h' : SameShape fs' fs'') : SameShape fs fs'' := Eq.trans h' h

theorem workingDirectory : fs'.workingDirectory = fs.workingDirectory := by
  have hhollow : fs'.hollow.workingDirectory = fs.hollow.workingDirectory := by rw [h]
  exact hhollow

theorem node?_hollow (other : Location) :
    (fs'.node? other).map Node.hollow = (fs.node? other).map Node.hollow := by
  rw [← FileSystem.node?_hollow, ← FileSystem.node?_hollow, h]

theorem locate (aim : Aim) (path : Path) : fs'.locate aim path = fs.locate aim path := by
  rw [← locate_hollow, h, locate_hollow]

theorem test {sort : Node → Bool} (hsort : ∀ node : Node, sort node.hollow = sort node) (aim : Aim)
    (path : Path) : fs'.test aim sort path = fs.test aim sort path := by
  rw [← test_hollow hsort, h, test_hollow hsort]

theorem isDirectory (path : Path) : fs'.isDirectory path = fs.isDirectory path :=
  h.test (by rintro (_ | _ | _) <;> rfl) _ _

theorem isLink (path : Path) : fs'.isLink path = fs.isLink path :=
  h.test (by rintro (_ | _ | _) <;> rfl) _ _

theorem isReadable (path : Path) : fs'.isReadable path = fs.isReadable path := by
  rw [FileSystem.isReadable, FileSystem.isReadable, h.test (by rintro (_ | _ | _) <;> rfl)]

theorem isPlainFile (path : Path) : fs'.isPlainFile path = fs.isPlainFile path := by
  rw [FileSystem.isPlainFile, FileSystem.isPlainFile, h.isLink, isFile, isFile,
    h.test (by rintro (_ | _ | _) <;> rfl)]

theorem entriesBelowPath (root : Path) :
    Letterhead.entriesBelowPath fs' root = Letterhead.entriesBelowPath fs root := by
  rw [← entriesBelowPath_hollow, h, entriesBelowPath_hollow]

theorem admits (config : Config) (root : Path) (names : List String) :
    config.admits root fs' names = config.admits root fs names := by
  rw [Config.admits, Config.admits, h.isPlainFile]

theorem agree : AgreeOffFiles fs fs' := by
  refine ⟨h.workingDirectory, fun place node hnode => ?_⟩
  rw [← Node.map_hollow_eq_some_iff hnode, h.node?_hollow, Node.map_hollow_eq_some_iff hnode]

theorem homeReached (hhome : fs.HomeReached) : fs'.HomeReached := hhome.agree h.agree

end SameShape

/-- A file that is given another content stays a file in its place, with its bits. -/
theorem SameShape.put {mode : Nat} {old : List UInt8} (hnode : fs.node? place = some (.file mode old))
    (new : List UInt8) : SameShape fs (fs.put place (.file mode new)) := by
  have hplace : place ≠ [] := by
    rintro rfl
    cases hnode
  refine ext_nodes rfl fun other => ?_
  rw [getElem?_hollow, getElem?_hollow, FileSystem.put, Std.ExtTreeMap.getElem?_insert]
  simp only [Std.LawfulEqCmp.compare_eq_iff_eq]
  split
  · rename_i heq
    rw [← heq, ← node?_of_ne_nil _ hplace, hnode]
    rfl
  · rfl

end FileSystem

end Letterhead
