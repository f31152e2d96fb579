import Letterhead.Decimal.Binary64
import Letterhead.Json.Writer
import Letterhead.Path

/-!
# Data

The values that the tool works with, among them paths, named constants, byte strings and records,
and how they are shown in messages.

## Main definitions

* `Datum` — the values
* `Datum.display` — a value as shown in messages
-/

namespace Letterhead

/-- A value of the tool. -/
inductive Datum
  | null
  | bool (b : Bool)
  | integer (n : Int)
  | real (x : Binary64)
  | text (t : Text)
  | bytes (bs : List UInt8)
  | path (p : Path)
  /-- A constant of a family, with the number or text it stands for. -/
  | constant (family name : String) (value : Datum)
  | list (items : List Datum)
  | tuple (items : List Datum)
  | set (items : List Datum)
  | fixedSet (items : List Datum)
  | map (entries : List (Datum × Datum))
  | record (name : String) (fields : List (String × Datum))

namespace Datum

/-- A proper string as a value. -/
def ofString (s : String) : Datum := text (Text.ofString s)

/-- A tuple as it is shown: a single item is followed by a comma. -/
def displayTuple : List String → String
  | [item] => "(" ++ item ++ ",)"
  | items => "(" ++ String.intercalate ", " items ++ ")"

/-- A set as it is shown. -/
def displaySet (items : List String) : String := "\x7b" ++ String.intercalate ", " items ++ "\x7d"

mutual

/-- A value as it is shown in messages. -/
def display : Datum → String
  | null => "None"
  | bool b => if b then "True" else "False"
  | integer n => toString n
  | real x => Json.shownLayout.write x
  | text t => Quoted.quote t
  | bytes bs => Quoted.quoteBytes bs
  | path p => "PosixPath(" ++ Quoted.quoteString p.toString ++ ")"
  | constant family name value => "<" ++ family ++ "." ++ name ++ ": " ++ display value ++ ">"
  | list items => "[" ++ String.intercalate ", " (displayAll items) ++ "]"
  | tuple items => displayTuple (displayAll items)
  | set items => if items.isEmpty then "set()" else displaySet (displayAll items)
  | fixedSet items =>
    if items.isEmpty then "frozenset()" else "frozenset(" ++ displaySet (displayAll items) ++ ")"
  | map entries => displaySet (displayEntries entries)
  | record name fields => name ++ "(" ++ String.intercalate ", " (displayFields fields) ++ ")"

/-- Values as they are shown in messages. -/
def displayAll : List Datum → List String
  | [] => []
  | item :: rest => display item :: displayAll rest

/-- The entries of a map as they are shown in messages. -/
def displayEntries : List (Datum × Datum) → List String
  | [] => []
  | (key, value) :: rest => (display key ++ ": " ++ display value) :: displayEntries rest

/-- The fields of a record as they are shown in messages. -/
def displayFields : List (String × Datum) → List String
  | [] => []
  | (name, value) :: rest => (name ++ "=" ++ display value) :: displayFields rest

end

end Datum

end Letterhead
