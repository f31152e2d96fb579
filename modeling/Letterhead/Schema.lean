import Letterhead.Json.Basic

/-!
# Schemas

A schema says which JSON values are acceptable. It is a conjunction of rules; every rule that a
value breaks is a violation, found at some place inside the value. Of several violations one is
reported: the one nearest to the top, and among those of one depth the one at the last place.

## Main definitions

* `Schema` — the rules
* `Schema.violations` — all violations of a schema, in the order of its rules
* `Schema.worst?` — the violation to report
* `Schema.keywords` — a schema as the members of a JSON object
-/

namespace Letterhead

/-- The kinds of JSON value that a schema may ask for. -/
inductive JsonKind
  | object
  | array
  | string
  | integer
  | boolean
  deriving DecidableEq, Repr

namespace JsonKind

/-- The word for a kind. -/
def label : JsonKind → String
  | object => "object"
  | array => "array"
  | string => "string"
  | integer => "integer"
  | boolean => "boolean"

/-- Whether a value is of a kind. A binary number that is whole counts as an integer. -/
def holds : JsonKind → Json → Bool
  | object, .object _ => true
  | array, .array _ => true
  | string, .string _ => true
  | integer, .integer _ => true
  | integer, .real x => x.isIntegral
  | boolean, .bool _ => true
  | _, _ => false

end JsonKind

/-- A schema. -/
inductive Schema
  /-- The value is of a kind. -/
  | kind (k : JsonKind)
  /-- An object has no members but those named. -/
  | closed (names : List String)
  /-- An object has all the members named. -/
  | required (names : List String)
  /-- The members of an object that are named obey schemas of their own. -/
  | properties (fields : List (String × Schema))
  /-- The value is this string. -/
  | constant (word : String)
  /-- The value is one of these strings. -/
  | oneOf (words : List String)
  /-- A string is not empty. -/
  | nonEmpty
  /-- A number is not below zero. -/
  | nonNegative
  /-- The items of an array obey a schema. -/
  | items (item : Schema)
  /-- A schema that is defined under a name. -/
  | named (name : String) (schema : Schema)
  /-- All of some schemas. -/
  | all (parts : List Schema)

/-- A step from a value to a part of it. -/
inductive PathStep
  | key (k : Text)
  | index (n : Nat)
  deriving DecidableEq, Repr

/-- Steps are ordered by key or by index. -/
instance : Ord PathStep where
  compare
    | .key a, .key b => compare a b
    | .index a, .index b => compare a b
    | .key _, .index _ => .gt
    | .index _, .key _ => .lt

/-- A value as it is shown in messages, and how deep it is. -/
structure Shown where
  text : String
  depth : Nat
  deriving DecidableEq, Repr

/-- A value as it is shown in messages, with its depth. -/
def Json.shown (value : Json) : Shown := ⟨value.display, value.depth⟩

/-- What a violation consists in. Values are kept as they are shown. -/
inductive Breach
  | wrongKind (shown : Shown) (wanted : JsonKind)
  | unexpectedMembers (keys : List Text)
  | missingMember (name : String)
  | notConstant (word : String)
  | notListed (shown : Shown) (words : List String)
  | emptyString (shown : String)
  | belowZero (shown : String)
  deriving DecidableEq, Repr

namespace Breach

/-- The keyword of the rule that is broken. -/
def keyword : Breach → String
  | wrongKind _ _ => "type"
  | unexpectedMembers _ => "additionalProperties"
  | missingMember _ => "required"
  | notConstant _ => "const"
  | notListed _ _ => "enum"
  | emptyString _ => "minLength"
  | belowZero _ => "minimum"

/-- A breach in words. -/
def message : Breach → String
  | wrongKind shown wanted => s!"{shown.text} is not of type {Quoted.quoteString wanted.label}"
  | unexpectedMembers keys =>
    let list := String.intercalate ", " (keys.map Quoted.quote)
    let verb := if keys.length = 1 then "was" else "were"
    s!"Additional properties are not allowed ({list} {verb} unexpected)"
  | missingMember name => s!"{Quoted.quoteString name} is a required property"
  | notConstant word => s!"{Quoted.quoteString word} was expected"
  | notListed shown words =>
    let list := String.intercalate ", " (words.map Quoted.quoteString)
    s!"{shown.text} is not one of [{list}]"
  | emptyString shown => s!"{shown} should be non-empty"
  | belowZero shown => s!"{shown} is less than the minimum of 0"

/-- How deep the value is that a breach shows, if that may be one with parts. -/
def depth : Breach → Nat
  | wrongKind shown _ | notListed shown _ => shown.depth
  | _ => 0

end Breach

/-- A breach and where it was found. -/
structure Violation where
  path : List PathStep
  breach : Breach
  deriving DecidableEq, Repr

namespace Violation

/-- The violation seen from a value one step above. -/
def under (step : PathStep) (v : Violation) : Violation := { v with path := step :: v.path }

/-- Whether a violation is to be reported rather than one found before it. -/
def isWorseThan (v other : Violation) : Bool :=
  v.path.length < other.path.length ||
    (v.path.length == other.path.length && (compare v.path other.path).isGT)

end Violation

namespace Schema

/-- A rule for values of a kind: others cannot break it. -/
def breachIf (broken : Bool) (breach : Breach) : List Violation :=
  if broken then [⟨[], breach⟩] else []

/-- The members of an object that are not among those named, sorted. -/
def otherKeys (names : List String) (members : List (Text × Json)) : List Text :=
  ((members.map (·.1)).filter fun key => !(names.map Text.ofString).contains key).mergeSort
    fun a b => (compare a b).isLE

mutual

/-- The violations of a schema in a value, in the order of the rules. -/
def violations : Schema → Json → List Violation
  | kind k, value => breachIf (!k.holds value) (.wrongKind value.shown k)
  | closed names, .object members =>
    breachIf (otherKeys names members != []) (.unexpectedMembers (otherKeys names members))
  | required names, .object members =>
    (names.filter fun name => (members.lookup (Text.ofString name)).isNone).map fun name =>
      ⟨[], .missingMember name⟩
  | properties fields, .object members => fieldViolations fields members
  | constant word, .string t => breachIf (t != Text.ofString word) (.notConstant word)
  | constant word, _ => [⟨[], .notConstant word⟩]
  | oneOf words, .string t =>
    breachIf (!(words.map Text.ofString).contains t) (.notListed (Json.string t).shown words)
  | oneOf words, value => [⟨[], .notListed value.shown words⟩]
  | nonEmpty, .string t => breachIf t.isEmpty (.emptyString (Quoted.quote t))
  | nonNegative, .integer n => breachIf (n < 0) (.belowZero (toString n))
  | nonNegative, .real x => breachIf x.isNegative (.belowZero (Json.shownLayout.write x))
  | items item, .array values => itemViolations item 0 values
  | named _ schema, value => violations schema value
  | all parts, value => partViolations parts value
  | _, _ => []

/-- The violations in the members of an object that have schemas of their own. -/
def fieldViolations : List (String × Schema) → List (Text × Json) → List Violation
  | [], _ => []
  | (name, schema) :: rest, members =>
    (match members.lookup (Text.ofString name) with
      | some value => (violations schema value).map (Violation.under (.key (Text.ofString name)))
      | none => []) ++ fieldViolations rest members

/-- The violations in the items of an array, the first of which has the given index. -/
def itemViolations (item : Schema) (index : Nat) : List Json → List Violation
  | [] => []
  | value :: rest =>
    (violations item value).map (Violation.under (.index index)) ++
      itemViolations item (index + 1) rest

/-- The violations of several schemas. -/
def partViolations : List Schema → Json → List Violation
  | [], _ => []
  | part :: rest, value => violations part value ++ partViolations rest value

end

/-- The violation to report, if there is any. -/
def worst? (schema : Schema) (value : Json) : Option Violation :=
  match schema.violations value with
  | [] => none
  | first :: rest =>
    some (rest.foldl (fun worst next => if next.isWorseThan worst then next else worst) first)

mutual

/-- A schema as the members of a JSON object. -/
def keywords : Schema → List (Text × Json)
  | kind k => [(Text.ofString "type", Json.ofString k.label)]
  | closed _ => [(Text.ofString "additionalProperties", .bool false)]
  | required names => [(Text.ofString "required", .array (names.map Json.ofString))]
  | properties fields => [(Text.ofString "properties", .object (fieldKeywords fields))]
  | constant word => [(Text.ofString "const", Json.ofString word)]
  | oneOf words => [(Text.ofString "enum", .array (words.map Json.ofString))]
  | nonEmpty => [(Text.ofString "minLength", .integer 1)]
  | nonNegative => [(Text.ofString "minimum", .integer 0)]
  | items item => [(Text.ofString "items", .object (keywords item))]
  | named name _ => [(Text.ofString "$ref", Json.ofString ("#/$defs/" ++ name))]
  | all parts => partKeywords parts

/-- The schemas of members as JSON objects. -/
def fieldKeywords : List (String × Schema) → List (Text × Json)
  | [] => []
  | (name, schema) :: rest => (Text.ofString name, .object (keywords schema)) :: fieldKeywords rest

/-- The keywords of several schemas. -/
def partKeywords : List Schema → List (Text × Json)
  | [] => []
  | part :: rest => keywords part ++ partKeywords rest

end

end Schema

end Letterhead
