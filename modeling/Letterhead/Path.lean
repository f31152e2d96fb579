import Letterhead.Text.Quoted

/-!
# Paths

A path is an anchor and a list of names. Reading a path drops empty names and single dots, which
mean nothing, and keeps double dots, which depend on symbolic links. Two leading slashes are an
anchor of their own; three or more are one.

## Main definitions

* `Path.parse`, `Path.toString` — reading and writing a path
* `Path.name`, `Path.suffix`, `Path.withName`, `Path.backup` — the last name of a path
* `Path.steps` — the names one by one, as a look-up follows them
-/

namespace Letterhead

/-- What a path starts from. -/
inductive Anchor
  /-- The working directory. -/
  | relative
  /-- The root directory. -/
  | root
  /-- The root directory, written with two slashes. -/
  | doubleRoot
  deriving DecidableEq, Repr

/-- The slashes of an anchor. -/
def Anchor.text : Anchor → String
  | relative => ""
  | root => "/"
  | doubleRoot => "//"

/-- The pieces of a string between its slashes. -/
def slashPieces (s : String) : List String := (s.toList.splitOn '/').map String.ofList

/-- A path: an anchor, and names to follow from there. -/
structure Path where
  anchor : Anchor
  names : List String
  deriving DecidableEq, Repr

/-- Why a path cannot be given another last name. -/
inductive PathError
  /-- The path has no last name. -/
  | emptyName (path : Path)
  /-- The new name is not a single name. -/
  | invalidName (name : String)
  deriving DecidableEq, Repr

namespace Path

/-- The anchor of a path that starts with the given characters. -/
def anchorOf : List Char → Anchor
  | '/' :: '/' :: '/' :: _ => .root
  | '/' :: '/' :: _ => .doubleRoot
  | '/' :: _ => .root
  | _ => .relative

/-- The path that a string names. -/
def parse (s : String) : Path :=
  ⟨anchorOf s.toList, (slashPieces s).filter fun piece => piece != "" && piece != "."⟩

/-- The path as a string; the working directory itself is a dot. -/
def toString (p : Path) : String :=
  if p.anchor = .relative ∧ p.names = [] then "."
  else p.anchor.text ++ String.intercalate "/" p.names

instance : ToString Path := ⟨toString⟩

/-- The parts of a path: the anchor, if it is not empty, and the names. -/
def parts (p : Path) : List String :=
  match p.anchor with
  | .relative => p.names
  | anchor => anchor.text :: p.names

/-- The last name, or nothing. -/
def name (p : Path) : String := p.names.getLast?.getD ""

/-- The part of a name from its last full stop on, if the stop is neither first nor last. -/
def suffixOf (name : List Char) : List Char :=
  let after := name.reverse.takeWhile (· != '.')
  let before := (name.reverse.drop after.length).drop 1
  if after.length < name.length ∧ before ≠ [] ∧ after ≠ [] then '.' :: after.reverse else []

/-- The suffix of the last name, full stop included. -/
def suffix (p : Path) : String := String.ofList (suffixOf p.name.toList)

/-- Whether a string can stand as a last name: it does not begin or end with a slash, and holds one
name and no other, dots aside. -/
def isSingleName (name : String) : Bool :=
  let asPath := parse name
  name != "" && name.toList.getLast? != some '/' && asPath.anchor == .relative &&
    asPath.names.length == 1

/-- The path with another last name. -/
def withName (p : Path) (name : String) : Except PathError Path :=
  if p.name = "" then .error (.emptyName p)
  else if isSingleName name then .ok { p with names := p.names.dropLast ++ [name] }
  else .error (.invalidName name)

/-- The path beside `p` where a backup is kept. -/
def backup (p : Path) (suffix : String) : Except PathError Path := p.withName (p.name ++ suffix)

/-- The path as seen from the root, when `directory` is the working directory. Double dots stay. -/
def absolute (p : Path) (directory : List String) : Path :=
  match p.anchor with
  | .relative => ⟨.root, directory ++ p.names⟩
  | _ => p

/-- The path of something below `p`. -/
def below (p : Path) (names : List String) : Path := { p with names := p.names ++ names }

/-- The names of a path one by one, as it is written. Only a name that was given with slashes in it is
cut further. -/
def steps (p : Path) : List String :=
  if p.anchor = .relative ∧ p.names = [] then ["."] else p.names.flatMap slashPieces

theorem steps_of_names {p : Path} (h : p.names ≠ []) : p.steps = p.names.flatMap slashPieces :=
  if_neg fun hdot => h hdot.2

/-- Whether a path ends in something else than a proper name, so that no entry can be made there. -/
def endsInDots (p : Path) : Bool :=
  match p.steps.getLast? with
  | none => true
  | some step => step == "." || step == ".."

/-- Whether a path holds a character that no name can have. -/
def hasNul (p : Path) : Bool := p.names.any (·.toList.contains '\x00')

end Path

/-- The message for a name that cannot be given. -/
def PathError.message : PathError → String
  | emptyName path => s!"PosixPath({Quoted.quoteString path.toString}) has an empty name"
  | invalidName name => s!"Invalid name {Quoted.quoteString name}"

end Letterhead
