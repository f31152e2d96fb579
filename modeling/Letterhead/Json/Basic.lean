import Letterhead.Decimal.Shortest
import Letterhead.Text.CodePoint
import Letterhead.Text.Quoted

/-!
# JSON values

Whole numbers and binary numbers are told apart, as their spelling in a document tells them apart.
An object keeps its members in the order they were given in.

## Main definitions

* `Json` — the values
* `Json.member?` — a member of an object
* `Json.display` — a value as it is shown in messages
* `Json.depth` — how deep containers are nested in a value
-/

namespace Letterhead

/-- A JSON value. -/
inductive Json
  | null
  | bool (b : Bool)
  | integer (n : Int)
  | real (x : Binary64)
  | string (t : Text)
  | array (items : List Json)
  | object (members : List (Text × Json))

namespace Json

/-- A proper string as a value. -/
def ofString (s : String) : Json := string (Text.ofString s)

/-- An object whose keys are proper strings. -/
def ofFields (fields : List (String × Json)) : Json :=
  object (fields.map fun (key, value) => (Text.ofString key, value))

/-- The value of the first member with a key. -/
def member? (key : String) : Json → Option Json
  | object members => members.lookup (Text.ofString key)
  | _ => none

/-- Put a member into a list of members. A member with the same key keeps its place and gets the new
value. -/
def insertMember (key : Text) (value : Json) : List (Text × Json) → List (Text × Json)
  | [] => [(key, value)]
  | (k, v) :: rest =>
    if k = key then (k, value) :: rest else (k, v) :: insertMember key value rest

/-- How numbers are laid out in messages. -/
def shownLayout : Layout := { nan := "nan", infinity := "inf" }

mutual

/-- A value as it is shown in messages. -/
def display : Json → String
  | null => "None"
  | bool b => if b then "True" else "False"
  | integer n => toString n
  | real x => shownLayout.write x
  | string t => Quoted.quote t
  | array items => "[" ++ String.intercalate ", " (displayItems items) ++ "]"
  | object members => "\x7b" ++ String.intercalate ", " (displayMembers members) ++ "\x7d"

/-- Values as they are shown in messages. -/
def displayItems : List Json → List String
  | [] => []
  | item :: rest => display item :: displayItems rest

/-- Members as they are shown in messages. -/
def displayMembers : List (Text × Json) → List String
  | [] => []
  | (key, value) :: rest => (Quoted.quote key ++ ": " ++ display value) :: displayMembers rest

end

mutual

/-- How many values there are, one inside the other, on the longest way into a value. -/
def depth : Json → Nat
  | array items => itemDepth items + 1
  | object members => memberDepth members + 1
  | _ => 1

/-- The greatest depth of some values. -/
def itemDepth : List Json → Nat
  | [] => 0
  | item :: rest => max (depth item) (itemDepth rest)

/-- The greatest depth of some members. -/
def memberDepth : List (Text × Json) → Nat
  | [] => 0
  | (_, value) :: rest => max (depth value) (memberDepth rest)

end

end Json

end Letterhead
