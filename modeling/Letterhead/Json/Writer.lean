import Letterhead.Json.Basic

/-!
# Writing JSON

One text for each value: members come sorted by key, and nothing is escaped but the quotation mark,
the backslash and the control characters below the space. With an indent, every item has a line of
its own; without one, all is on one line.

Every value is written, however deep it is and whatever number is in it. Limits of the interpreter on
the depth and on the digits of a number, which reading has as `Json.depthLimit` and `Json.digitLimit`,
are left out here.

## Main definitions

* `Json.write` — the text of a value
* `Json.writeDocument` — the text of a document, which ends in a line feed
-/

namespace Letterhead.Json

/-- How numbers are laid out in JSON. -/
def writtenLayout : Layout := { nan := "NaN", infinity := "Infinity" }

/-- A character of a string as it is written. -/
def escapeChar (c : Char) : List Char :=
  if c = '\x22' ∨ c = '\x5c' then ['\x5c', c]
  else if c = '\n' then ['\x5c', 'n']
  else if c = '\r' then ['\x5c', 'r']
  else if c = '\t' then ['\x5c', 't']
  else if c = '\x08' then ['\x5c', 'b']
  else if c = '\x0c' then ['\x5c', 'f']
  else if c.toNat < 0x20 then '\x5c' :: 'u' :: Quoted.hexDigits 4 c.toNat
  else [c]

/-- A code point of a string as it is written. -/
def escape : CodePoint → Text
  | .scalar c => (escapeChar c).map .scalar
  | .surrogate offset => [.surrogate offset]

/-- A string as it is written. -/
def writeString (t : Text) : Text :=
  .scalar '\x22' :: t.flatMap escape ++ [.scalar '\x22']

/-- Whether one key comes before another, or is the same. -/
def keyLe (a b : Text × Text) : Bool := (compare a.1 b.1).isLE

/-- What stands before an item at some depth: a line of its own with an indent, else nothing. -/
def lineBreak (indent : Option Int) (depth : Nat) : Text :=
  match indent with
  | none => []
  | some width => Text.lineFeed :: List.replicate (width.toNat * depth) (.scalar ' ')

/-- What stands between two items, a line break apart. -/
def separator : Option Int → Text
  | none => Text.ofString ", "
  | some _ => Text.ofString ","

/-- Written items one after the other, between brackets. -/
def enclose (indent : Option Int) (depth : Nat) (opening closing : Char) (items : List Text) :
    Text :=
  match items with
  | [] => [.scalar opening, .scalar closing]
  | first :: rest =>
    .scalar opening :: lineBreak indent (depth + 1) ++ first ++
      rest.flatMap (fun item => separator indent ++ lineBreak indent (depth + 1) ++ item) ++
      lineBreak indent depth ++ [.scalar closing]

mutual

/-- The text of a value that stands at some depth. There is one for every value: no depth and no number
of digits is too much, as it may be for an interpreter. -/
def write (indent : Option Int) (depth : Nat) : Json → Text
  | null => Text.ofString "null"
  | bool b => Text.ofString (if b then "true" else "false")
  | integer n => Text.ofString (toString n)
  | real x => Text.ofString (writtenLayout.write x)
  | string t => writeString t
  | array items => enclose indent depth '[' ']' (writeItems indent (depth + 1) items)
  | object members =>
    enclose indent depth '\x7b' '\x7d'
      (((writeMembers indent (depth + 1) members).mergeSort keyLe).map fun (key, value) =>
        writeString key ++ Text.ofString ": " ++ value)

/-- The texts of the items of an array. -/
def writeItems (indent : Option Int) (depth : Nat) : List Json → List Text
  | [] => []
  | item :: rest => write indent depth item :: writeItems indent depth rest

/-- The keys of an object with the texts of the values. -/
def writeMembers (indent : Option Int) (depth : Nat) : List (Text × Json) → List (Text × Text)
  | [] => []
  | (key, value) :: rest => (key, write indent depth value) :: writeMembers indent depth rest

end

/-- The text of a document: the value, and a line feed. -/
def writeDocument (indent : Option Int) (value : Json) : Text :=
  write indent 0 value ++ [Text.lineFeed]

end Letterhead.Json
