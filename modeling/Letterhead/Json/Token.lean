import Letterhead.Json.Basic

/-!
# Reading JSON: tokens

A document is first cut into tokens, each with the number of code points before it. Cutting ends at
the first place where no token can be read; what is wrong there is kept as a last token, because it
matters only if a value is wanted in that place.

Besides the numbers of JSON, the words `NaN` and `Infinity` are numbers. A surrogate may be escaped
on its own; two that make a pair are read as one character, if both are escaped.

## Main definitions

* `Json.Limits` — how much a document may hold
* `Json.Token` — the tokens
* `Json.readString` — the content of a string, or what is wrong with it
* `Json.tokens` — the tokens of a document
-/

namespace Letterhead.Json

/-- The greatest number of digits in a whole number. -/
def digitLimit : Nat := 4300

/-- The greatest number of containers that can be open at once. -/
def depthLimit : Nat := 987

/-- How much a document may hold. -/
structure Limits where
  /-- The greatest number of digits in a whole number. -/
  digits : Nat := digitLimit
  /-- The greatest number of containers that can be open at once. -/
  depth : Nat := depthLimit
  deriving DecidableEq, Repr

/-- Why a document cannot be read. -/
inductive Flaw
  | byteOrderMark
  | expectedValue
  | expectedKey
  | expectedColon
  | expectedComma
  | extraData
  | unterminatedString
  | controlCharacter
  | badEscape
  | badUnicodeEscape
  /-- A whole number has more digits than are read. -/
  | tooManyDigits (count : Nat)
  /-- An array starts inside too many others. -/
  | arrayTooDeep
  /-- An object starts inside too many others. -/
  | objectTooDeep
  deriving DecidableEq, Repr

/-- A token. -/
inductive Token
  | openArray
  | closeArray
  | openObject
  | closeObject
  | colon
  | comma
  | text (t : Text)
  /-- Any other value without parts. -/
  | scalar (value : Json)
  /-- A whole number with more digits than are read. -/
  | vast (digits : Nat)
  /-- A string that cannot be read: what is wrong with it, and where. -/
  | spoilt (flaw : Flaw) (position : Nat)
  /-- Something that starts no token. -/
  | other

/-- The value of a hexadecimal digit. -/
def hexDigit? : CodePoint → Option Nat
  | .scalar c =>
    if '0' ≤ c ∧ c ≤ '9' then some (c.toNat - 48)
    else if 'a' ≤ c ∧ c ≤ 'f' then some (c.toNat - 87)
    else if 'A' ≤ c ∧ c ≤ 'F' then some (c.toNat - 55)
    else none
  | .surrogate _ => none

/-- The number of four hexadecimal digits. -/
def hexQuad? (a b c d : CodePoint) : Option Nat := do
  let a ← hexDigit? a
  let b ← hexDigit? b
  let c ← hexDigit? c
  let d ← hexDigit? d
  pure (((a * 16 + b) * 16 + c) * 16 + d)

/-- What a single character after a backslash stands for. -/
def simpleEscape? : CodePoint → Option Char
  | .scalar '\x22' => some '\x22'
  | .scalar '\x5c' => some '\x5c'
  | .scalar '/' => some '/'
  | .scalar 'b' => some '\x08'
  | .scalar 'f' => some '\x0c'
  | .scalar 'n' => some '\n'
  | .scalar 'r' => some '\r'
  | .scalar 't' => some '\t'
  | _ => none

/-- Whether a number is that of a first half of a surrogate pair. -/
def isHighSurrogate (n : Nat) : Bool := 0xD800 ≤ n && n < 0xDC00

/-- Whether a number is that of a second half of a surrogate pair. -/
def isLowSurrogate (n : Nat) : Bool := 0xDC00 ≤ n && n < 0xE000

/-- The code point of an escaped number. -/
def escapedPoint (n : Nat) : CodePoint := (CodePoint.ofNat? n).getD (.scalar '\x00')

/-- The character of a surrogate pair. -/
def pairedPoint (high low : Nat) : CodePoint :=
  escapedPoint (0x10000 + (high - 0xD800) * 0x400 + (low - 0xDC00))

/-- Put a code point in front of a content that has been read. -/
def consContent (p : CodePoint) (width : Nat) (result : Except (Flaw × Nat) (Text × Nat)) :
    Except (Flaw × Nat) (Text × Nat) :=
  match result with
  | .ok (t, count) => .ok (p :: t, count + width)
  | .error flaw => .error flaw

/-- Whether a text starts with an escaped number. -/
def startsEscape : Text → Bool
  | .scalar '\x5c' :: .scalar 'u' :: _ => true
  | _ => false

/-- Put an escaped number in front of the content that has been read from `rest`. The halves of a
surrogate pair are one character if both are escaped, one right behind the other. -/
def consEscaped (n : Nat) (rest : Text) (result : Except (Flaw × Nat) (Text × Nat)) :
    Except (Flaw × Nat) (Text × Nat) :=
  match result with
  | .ok (.surrogate low :: t, count) =>
    if isHighSurrogate n && isLowSurrogate (0xD800 + low.val) && startsEscape rest then
      .ok (pairedPoint n (0xD800 + low.val) :: t, count + 6)
    else consContent (escapedPoint n) 6 result
  | _ => consContent (escapedPoint n) 6 result

/-- The content of a string after its opening mark, with the number of code points read, the closing
mark included. `start` and `here` are the numbers of code points before the opening mark and before
this place; a flaw comes with its place. The digits of an escape must be followed by something. -/
def readString (start here : Nat) : Text → Except (Flaw × Nat) (Text × Nat)
  | [] => .error (.unterminatedString, start)
  | .scalar '\x22' :: _ => .ok ([], 1)
  | .scalar '\x5c' :: .scalar 'u' :: a :: b :: c :: d :: rest =>
    match hexQuad? a b c d with
    | some n =>
      if rest.isEmpty then .error (.badUnicodeEscape, here + 1)
      else consEscaped n rest (readString start (here + 6) rest)
    | none => .error (.badUnicodeEscape, here + 1)
  | .scalar '\x5c' :: .scalar 'u' :: _ => .error (.badUnicodeEscape, here + 1)
  | .scalar '\x5c' :: p :: rest =>
    match simpleEscape? p with
    | some c => consContent (.scalar c) 2 (readString start (here + 2) rest)
    | none => .error (.badEscape, here)
  | [.scalar '\x5c'] => .error (.unterminatedString, start)
  | p :: rest =>
    if p.value < 0x20 then .error (.controlCharacter, here)
    else consContent p 1 (readString start (here + 1) rest)

/-- The value of a decimal digit. -/
def digit? : CodePoint → Option Nat
  | .scalar c => if c.isDigit then some (c.toNat - 48) else none
  | .surrogate _ => none

/-- The digits at the start of a text. -/
def leadingDigits : Text → List Nat
  | [] => []
  | p :: rest =>
    match digit? p with
    | some d => d :: leadingDigits rest
    | none => []

/-- The whole number that digits stand for. -/
def numberOf (digits : List Nat) : Nat := digits.foldl (fun n d => n * 10 + d) 0

/-- The fraction at the start of a text: its digits, if there is a point with a digit after it. -/
def readFraction : Text → List Nat
  | .scalar '.' :: rest => leadingDigits rest
  | _ => []

/-- The power of ten at the start of a text, with its width, if there is one with a digit. -/
def readPower? (t : Text) : Option (Int × Nat) :=
  match t with
  | .scalar mark :: rest =>
    if mark = 'e' ∨ mark = 'E' then
      let (negative, digits, width) :=
        match rest with
        | .scalar '-' :: more => (true, leadingDigits more, 2)
        | .scalar '+' :: more => (false, leadingDigits more, 2)
        | more => (false, leadingDigits more, 1)
      let size : Int := numberOf digits
      if digits.isEmpty then none
      else some (if negative then -size else size, width + digits.length)
    else none
  | _ => none

/-- The digits of a whole part: a zero stands alone. -/
def readWhole : Text → List Nat
  | .scalar '0' :: _ => [0]
  | t => leadingDigits t

/-- The token for the digits of a whole number. -/
def wholeToken (limits : Limits) (negative : Bool) (digits : List Nat) : Token :=
  let size : Int := numberOf digits
  if limits.digits < digits.length then .vast digits.length
  else .scalar (.integer (if negative then -size else size))

/-- The number without a sign at the start of a text, with its width. -/
def readUnsigned? (limits : Limits) (negative : Bool) (t : Text) : Option (Token × Nat) :=
  let whole := readWhole t
  let fraction := readFraction (t.drop whole.length)
  let fractionWidth := if fraction.isEmpty then 0 else fraction.length + 1
  let width := whole.length + fractionWidth
  if whole.isEmpty then none
  else
    match readPower? (t.drop width), fraction with
    | none, [] => some (wholeToken limits negative whole, width)
    | none, fraction =>
      let digits := numberOf (whole ++ fraction)
      some (.scalar (.real (.ofDecimal negative digits (-fraction.length))), width)
    | some (power, powerWidth), fraction =>
      let digits := numberOf (whole ++ fraction)
      some (.scalar (.real (.ofDecimal negative digits (power - fraction.length))),
        width + powerWidth)

/-- The words that stand for values. -/
def words : List (Text × Json) := [
  (Text.ofString "null", .null),
  (Text.ofString "true", .bool true),
  (Text.ofString "false", .bool false),
  (Text.ofString "NaN", .real .nan),
  (Text.ofString "Infinity", .real (.infinity false)),
  (Text.ofString "-Infinity", .real (.infinity true))]

/-- The value without parts at the start of a text, strings apart, with its width. -/
def readScalar? (limits : Limits) (t : Text) : Option (Token × Nat) :=
  match words.find? fun entry => entry.1.isPrefixOf t with
  | some (word, value) => some (.scalar value, word.length)
  | none =>
    match t with
    | .scalar '-' :: rest =>
      (readUnsigned? limits true rest).map fun (token, width) => (token, width + 1)
    | _ => readUnsigned? limits false t

/-- White space between tokens. -/
def isGap (p : CodePoint) : Bool :=
  p == .scalar ' ' || p == .scalar '\t' || p == .scalar '\n' || p == .scalar '\r'

/-- The token of one punctuation mark. -/
def punctuation? : CodePoint → Option Token
  | .scalar '[' => some .openArray
  | .scalar ']' => some .closeArray
  | .scalar '\x7b' => some .openObject
  | .scalar '\x7d' => some .closeObject
  | .scalar ':' => some .colon
  | .scalar ',' => some .comma
  | _ => none

/-- The tokens of a text with `here` code points before it, the first `skip` of which belong to a
token already cut. -/
def tokensFrom (limits : Limits) (here : Nat) : Nat → Text → List (Nat × Token)
  | _, [] => []
  | skip + 1, _ :: rest => tokensFrom limits (here + 1) skip rest
  | 0, p :: rest =>
    if isGap p then tokensFrom limits (here + 1) 0 rest
    else if p == .scalar '\x22' then
      match readString here (here + 1) rest with
      | .ok (content, count) =>
        (here, .text content) :: tokensFrom limits (here + 1) count rest
      | .error (flaw, place) => [(here, .spoilt flaw place)]
    else
      match punctuation? p with
      | some token => (here, token) :: tokensFrom limits (here + 1) 0 rest
      | none =>
        match readScalar? limits (p :: rest) with
        | some (token, width) => (here, token) :: tokensFrom limits (here + 1) (width - 1) rest
        | none => [(here, .other)]

/-- The tokens of a document. -/
def tokens (limits : Limits) (t : Text) : List (Nat × Token) := tokensFrom limits 0 0 t

end Letterhead.Json
