import Letterhead.Text.CodePoint
import Letterhead.Text.Printable

/-!
# Quoted text

How a text is shown inside a message: between quotes, with what cannot be seen given by number.
The quotes are single ones, unless the text holds a single quote and no double one.

## Main definitions

* `Quoted.quote` — a text between quotes
* `Quoted.quoteBytes` — a byte string between quotes, marked by a `b`
* `Quoted.escapeNumber` — a code point shown by number
-/

namespace Letterhead.Quoted

/-- The last `width` hexadecimal digits of a number. -/
def hexDigits (width n : Nat) : List Char :=
  match width with
  | 0 => []
  | width + 1 => hexDigits width (n / 16) ++ [Nat.digitChar (n % 16)]

/-- A number as an escape of two, four or eight hexadecimal digits, whichever is the first to do. -/
def escapeNumber (n : Nat) : List Char :=
  if n < 0x100 then '\x5c' :: 'x' :: hexDigits 2 n
  else if n < 0x10000 then '\x5c' :: 'u' :: hexDigits 4 n
  else '\x5c' :: 'U' :: hexDigits 8 n

/-- A quote, where the double one is taken if `double` holds. -/
def mark (double : Bool) : Char := if double then '\x22' else '\x27'

/-- The escapes that both kinds of string share: the quote in use, the backslash, tab and line ends.
-/
def escapeShared? (double : Bool) (c : Char) : Option (List Char) :=
  if c = mark double ∨ c = '\x5c' then some ['\x5c', c]
  else if c = '\t' then some ['\x5c', 't']
  else if c = '\n' then some ['\x5c', 'n']
  else if c = '\r' then some ['\x5c', 'r']
  else none

/-- One character inside quotes. -/
def escapeChar (double : Bool) (c : Char) : List Char :=
  match escapeShared? double c with
  | some escaped => escaped
  | none => if printable c then [c] else escapeNumber c.toNat

/-- One code point inside quotes; a surrogate is always shown by number. -/
def escape (double : Bool) : CodePoint → List Char
  | .scalar c => escapeChar double c
  | .surrogate offset => escapeNumber (0xD800 + offset.val)

/-- One byte inside quotes; only ASCII is shown as it is. -/
def escapeByte (double : Bool) (byte : UInt8) : List Char :=
  let c := Char.ofNat byte.toNat
  match escapeShared? double c with
  | some escaped => escaped
  | none => if 0x20 ≤ byte.toNat ∧ byte.toNat < 0x7F then [c] else escapeNumber byte.toNat

/-- Double quotes serve a text that holds a single quote and no double quote. -/
def wantsDouble {α : Type} [BEq α] (single double : α) (xs : List α) : Bool :=
  xs.contains single && !xs.contains double

/-- A text between quotes. -/
def quote (t : Text) : String :=
  let double := wantsDouble (.scalar '\x27') (.scalar '\x22') t
  String.ofList (mark double :: t.flatMap (escape double) ++ [mark double])

/-- A string between quotes. -/
def quoteString (s : String) : String := quote (Text.ofString s)

/-- A byte string between quotes. -/
def quoteBytes (bytes : List UInt8) : String :=
  let double := wantsDouble 0x27 0x22 bytes
  String.ofList ('b' :: mark double :: bytes.flatMap (escapeByte double) ++ [mark double])

end Letterhead.Quoted
