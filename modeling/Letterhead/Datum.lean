import Letterhead.Batch
import Letterhead.Datum.Members

/-!
# Data and their JSON form

The JSON value that each value of the tool is written as. Values that JSON has no form for are
written as strings. The keys of a map may be any data; they become strings too.

## Main definitions

* `Datum.keyText` — a value as the key of an object
* `Datum.toJson` — the JSON form
* `Datum.writeDocument` — the text of the JSON form
-/

namespace Letterhead

namespace Datum

/-- A value as the key of an object: a text is its own key, a constant goes by its name unless it is
a number, a remark by its line of text, and anything else is shown. -/
def keyText : Datum → Text
  | text t => t
  | path p => Text.ofString p.toString
  | constant _ _ (integer n) => Text.ofString (toString n)
  | constant family name _ => Text.ofString (family ++ "." ++ name)
  | record "Diagnostic" [_, (_, text message), (_, text source), (_, integer line)] =>
    source ++ Text.ofString s!":{line}: " ++ message
  | other => Text.ofString other.display

/-- The key and value of an entry, with the identity of the key. -/
structure KeyedEntry where
  identity : Option String
  key : Text
  value : Json

/-- Put an entry behind others. One with the same identity keeps its key and gets the new value. -/
def insertEntry (entry : KeyedEntry) : List KeyedEntry → List KeyedEntry
  | [] => [entry]
  | other :: rest =>
    if sameIdentity other.identity entry.identity then { other with value := entry.value } :: rest
    else other :: insertEntry entry rest

/-- The members of an object made of entries: of keys that are one the first counts, and of values
under one key the last. -/
def membersOf (entries : List KeyedEntry) : List (Text × Json) :=
  (entries.foldl (fun kept entry => insertEntry entry kept) []).foldl
    (fun members entry => Json.insertMember entry.key entry.value members) []

mutual

/-- The JSON form of a value. -/
def toJson : Datum → Json
  | null => .null
  | bool b => .bool b
  | integer n => .integer n
  | real x => .real x
  | text t => .string t
  | bytes bs => Json.ofString (Quoted.quoteBytes bs)
  | path p => Json.ofString p.toString
  | constant _ _ value => toJson value
  | list items | tuple items | set items | fixedSet items => .array (allToJson items)
  | map entries => .object (membersOf (entriesToJson entries))
  | record _ fields => .object (fieldsToJson fields)

/-- The JSON forms of some values. -/
def allToJson : List Datum → List Json
  | [] => []
  | item :: rest => toJson item :: allToJson rest

/-- The entries of a map with the JSON forms of the values. -/
def entriesToJson : List (Datum × Datum) → List KeyedEntry
  | [] => []
  | (key, value) :: rest => ⟨identity? key, keyText key, toJson value⟩ :: entriesToJson rest

/-- The fields of a record with the JSON forms of the values. -/
def fieldsToJson : List (String × Datum) → List (Text × Json)
  | [] => []
  | (name, value) :: rest => (Text.ofString name, toJson value) :: fieldsToJson rest

end

/-- The text of a document that holds the JSON form of a value. Like `Json.write` it has no limits, on
the depth of a value or on the digits of a number. -/
def writeDocument (indent : Option Int) (d : Datum) : Text := d.toJson.writeDocument indent

end Datum

/-- A remark as a record. -/
def Diagnostic.toDatum (d : Diagnostic) : Datum :=
  .record "Diagnostic"
    [("severity", .constant "Severity" d.severity.label.toUpper (.ofString d.severity.label)),
      ("message", .text d.message), ("source", .ofString d.source),
      ("line_number", .integer d.line)]

/-- An outcome as a record. -/
def Outcome.toDatum (o : Outcome) : Datum :=
  .record "FileOutcome"
    [("path", .ofString o.path),
      ("status", .constant "FileStatus" o.status.label.toUpper (.ofString o.status.label)),
      ("diagnostics", .tuple (o.diagnostics.map Diagnostic.toDatum)), ("error", .ofString o.error)]

/-- A notice as a record. -/
def Notice.toDatum (n : Notice) : Datum :=
  .record "CopyrightText" [("lines", .tuple (n.lines.map .ofString))]

/-- The settings as a record. -/
def Config.toDatum (c : Config) : Datum :=
  .record "UpdateConfig"
    [("copyright_file", .path c.noticeFile),
      ("backup_suffix", (c.backupSuffix.map Datum.ofString).getD (.list [])),
      ("encoding", .ofString c.charsetName),
      ("vcs_dirs", .fixedSetOf (c.ignoredNames.map .ofString)),
      ("include_exts", .tuple (c.suffixes.map .ofString)), ("check_only", .bool c.checkOnly)]

end Letterhead
