import Letterhead.Json.Token

/-!
# Reading JSON: values

The tokens of a document are taken one by one, while the containers that have been opened and not
yet closed are kept in a list, the innermost first. What may come next is one of six expectations. A
document holds one value and nothing after it. Of two members with one key the later value counts.

## Main definitions

* `Json.Frame`, `Json.Expectation` — what is open, and what may come next
* `Json.readTokens` — the value of some tokens
* `Json.readWithin` — the value of a document within some limits
* `Json.read` — the value of a document, or a `Json.ReadError`
-/

namespace Letterhead.Json

/-- A container that has been opened: what it holds so far. The items of an array come last first;
an object has the key whose value is being read. -/
inductive Frame
  | array (items : List Json)
  | object (members : List (Text × Json)) (key : Text)

/-- What may come next. -/
inductive Expectation
  | value
  /-- A value, or the end of the array that has just been opened. -/
  | firstItem
  /-- A key, or the end of the object that has just been opened. -/
  | firstKey
  /-- A key of an object with these members. -/
  | key (members : List (Text × Json))
  | colon
  /-- What may follow a value. -/
  | after (value : Json)

/-- Whether no further container can be opened. -/
def isFull (limits : Limits) (stack : List Frame) : Bool := limits.depth ≤ stack.length

/-- What a token does when a value is wanted: it opens a container, or is a value itself. -/
def startValue (limits : Limits) (stack : List Frame) :
    Nat × Token → Except (Flaw × Nat) (Expectation × List Frame)
  | (place, .openArray) =>
    if isFull limits stack then .error (.arrayTooDeep, place)
    else .ok (.firstItem, .array [] :: stack)
  | (place, .openObject) =>
    if isFull limits stack then .error (.objectTooDeep, place) else .ok (.firstKey, stack)
  | (_, .text t) => .ok (.after (.string t), stack)
  | (_, .scalar value) => .ok (.after value, stack)
  | (place, .vast digits) => .error (.tooManyDigits digits, place)
  | (_, .spoilt flaw place) => .error (flaw, place)
  | (place, _) => .error (.expectedValue, place)

/-- What a token does when a key is wanted. -/
def startKey (members : List (Text × Json)) (stack : List Frame) :
    Nat × Token → Except (Flaw × Nat) (Expectation × List Frame)
  | (_, .text t) => .ok (.colon, .object members t :: stack)
  | (_, .spoilt flaw place) => .error (flaw, place)
  | (place, _) => .error (.expectedKey, place)

/-- What a token does after a value: it closes the innermost container or goes on in it. -/
def afterValue (value : Json) :
    List Frame → Nat × Token → Except (Flaw × Nat) (Expectation × List Frame)
  | [], (place, _) => .error (.extraData, place)
  | .array items :: stack, (_, .closeArray) =>
    .ok (.after (.array (value :: items).reverse), stack)
  | .array items :: stack, (_, .comma) => .ok (.value, .array (value :: items) :: stack)
  | .object members key :: stack, (_, .closeObject) =>
    .ok (.after (.object (insertMember key value members)), stack)
  | .object members key :: stack, (_, .comma) => .ok (.key (insertMember key value members), stack)
  | _, (place, _) => .error (.expectedComma, place)

/-- What a token does. -/
def step (limits : Limits) (stack : List Frame) (token : Nat × Token) :
    Expectation → Except (Flaw × Nat) (Expectation × List Frame)
  | .value => startValue limits stack token
  | .firstItem =>
    match token.2, stack with
    | .closeArray, _ :: outer => .ok (.after (.array []), outer)
    | _, _ => startValue limits stack token
  | .firstKey =>
    match token.2 with
    | .closeObject => .ok (.after (.object []), stack)
    | _ => startKey [] stack token
  | .key members => startKey members stack token
  | .colon =>
    match token.2 with
    | .colon => .ok (.value, stack)
    | _ => .error (.expectedColon, token.1)
  | .after value => afterValue value stack token

/-- What is wrong when a document ends while something is expected; none if it may end there. -/
def endFlaw? (stack : List Frame) : Expectation → Except Flaw Json
  | .value | .firstItem => .error .expectedValue
  | .firstKey | .key _ => .error .expectedKey
  | .colon => .error .expectedColon
  | .after value => if stack.isEmpty then .ok value else .error .expectedComma

/-- The value of some tokens before the end of the document at `length`. -/
def readTokens (limits : Limits) (length : Nat) :
    List Frame → Expectation → List (Nat × Token) → Except (Flaw × Nat) Json
  | stack, expected, [] =>
    match endFlaw? stack expected with
    | .ok value => .ok value
    | .error flaw => .error (flaw, length)
  | stack, expected, token :: rest =>
    match step limits stack token expected with
    | .ok (expected, stack) => readTokens limits length stack expected rest
    | .error flaw => .error flaw

/-- A document that cannot be read: what is wrong, and where, by the number of code points before
it, by its line and by its column. -/
structure ReadError where
  flaw : Flaw
  position : Nat
  line : Nat
  column : Nat
  deriving DecidableEq, Repr

/-- A flaw in words. -/
def Flaw.text : Flaw → String
  | byteOrderMark => "Unexpected UTF-8 BOM (decode using utf-8-sig)"
  | expectedValue => "Expecting value"
  | expectedKey => "Expecting property name enclosed in double quotes"
  | expectedColon => "Expecting ':' delimiter"
  | expectedComma => "Expecting ',' delimiter"
  | extraData => "Extra data"
  | unterminatedString => "Unterminated string starting at"
  | controlCharacter => "Invalid control character at"
  | badEscape => "Invalid \\escape"
  | badUnicodeEscape => "Invalid \\uXXXX escape"
  | tooManyDigits count =>
    s!"Exceeds the limit ({digitLimit} digits) for integer string conversion: " ++
      s!"value has {count} digits; use sys.set_int_max_str_digits() to increase the limit"
  | arrayTooDeep =>
    "maximum recursion depth exceeded while decoding a JSON array from a unicode string"
  | objectTooDeep =>
    "maximum recursion depth exceeded while decoding a JSON object from a unicode string"

/-- Whether a document may be well formed in spite of a flaw, which only says that there is too much
of something. -/
def Flaw.isExcess : Flaw → Bool
  | tooManyDigits _ | arrayTooDeep | objectTooDeep => true
  | _ => false

/-- The message for a document that cannot be read. -/
def ReadError.message (e : ReadError) : String :=
  if e.flaw.isExcess then e.flaw.text
  else s!"{e.flaw.text}: line {e.line} column {e.column} (char {e.position})"

/-- A flaw at a place of a document. Lines and columns are counted from one. -/
def ReadError.at (document : Text) (flaw : Flaw) (position : Nat) : ReadError :=
  let before := document.take position
  { flaw
    position
    line := before.count Text.lineFeed + 1
    column := (before.reverse.takeWhile (· != Text.lineFeed)).length + 1 }

/-- The value of a document within some limits. A flaw comes with its place. -/
def readWithin (limits : Limits) (document : Text) : Except (Flaw × Nat) Json :=
  if document.head? = some (.scalar '\ufeff') then .error (.byteOrderMark, 0)
  else readTokens limits document.length [] .value (tokens limits document)

/-- The value of a document. -/
def read (document : Text) : Except ReadError Json :=
  match readWithin {} document with
  | .ok value => .ok value
  | .error (flaw, position) => .error (ReadError.at document flaw position)

end Letterhead.Json
