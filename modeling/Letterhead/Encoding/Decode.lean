import Letterhead.Encoding.Charset
import Letterhead.Encoding.Utf8
import Letterhead.Text.CodePoint
import Letterhead.Text.Quoted

/-!
# Decoding

Two readings of the bytes of a file. The lenient one never fails: a byte without a meaning in the
charset stays in the text as a stray byte. The strict one fails at the first such byte and says
which bytes are at fault.

## Main definitions

* `Charset.decode` — the lenient reading
* `Charset.decodeStrict` — the strict one
* `DecodeError` — where and why the strict reading failed
-/

namespace Letterhead

/-- A place where bytes do not make a character. -/
structure DecodeError where
  charset : Charset
  /-- The number of the first byte at fault. -/
  position : Nat
  /-- The bytes at fault. -/
  bytes : List UInt8
  /-- What is wrong, in a charset that has more than one way to go wrong. -/
  flaw : Utf8.Flaw
  deriving DecidableEq, Repr

namespace DecodeError

/-- What is wrong, in words. -/
def reason (e : DecodeError) : String :=
  match e.charset, e.flaw with
  | .ascii, _ => "ordinal not in range(128)"
  | _, .badStart => "invalid start byte"
  | _, .badContinuation => "invalid continuation byte"
  | _, .cutShort => "unexpected end of data"

/-- The message for a failed reading; a single byte at fault is shown. -/
def message (e : DecodeError) : String :=
  let place :=
    match e.bytes with
    | [byte] => s!"byte 0x{String.ofList (Quoted.hexDigits 2 byte.toNat)} in position {e.position}"
    | bytes => s!"bytes in position {e.position}-{e.position + bytes.length - 1}"
  s!"'{e.charset.label}' codec can't decode {place}: {e.reason}"

end DecodeError

namespace Charset

/-- The lenient reading of UTF-8, when the first `skip` bytes belong to a character already read. -/
def decodeUtf8From : Nat → List UInt8 → Text
  | _, [] => []
  | skip + 1, _ :: rest => decodeUtf8From skip rest
  | 0, lead :: rest =>
    match Utf8.readFirst lead rest with
    | .ok (c, count) => .scalar c :: decodeUtf8From count rest
    | .error _ => .stray lead :: decodeUtf8From 0 rest

/-- The strict reading of UTF-8, when the first `skip` bytes belong to a character already read and
`position` bytes came before. -/
def decodeUtf8StrictFrom (position : Nat) : Nat → List UInt8 → Except DecodeError (List Char)
  | _, [] => .ok []
  | skip + 1, _ :: rest => decodeUtf8StrictFrom (position + 1) skip rest
  | 0, lead :: rest =>
    match Utf8.readFirst lead rest with
    | .ok (c, count) =>
      match decodeUtf8StrictFrom (position + 1) count rest with
      | .ok cs => .ok (c :: cs)
      | .error e => .error e
    | .error (flaw, count) => .error ⟨.utf8, position, lead :: rest.take count, flaw⟩

/-- The strict reading of ASCII, when `position` bytes came before. -/
def decodeAsciiStrictFrom (position : Nat) : List UInt8 → Except DecodeError (List Char)
  | [] => .ok []
  | byte :: rest =>
    if byte.toNat < 0x80 then
      match decodeAsciiStrictFrom (position + 1) rest with
      | .ok cs => .ok (Char.ofNat byte.toNat :: cs)
      | .error e => .error e
    else .error ⟨.ascii, position, [byte], .badStart⟩

/-- The bytes after a byte order mark, if there is one in front. -/
def dropMark (bytes : List UInt8) : List UInt8 := (byteOrderMark.isPrefixOf? bytes).getD bytes

/-- The text of some bytes; bytes without a meaning stay in it as stray bytes. -/
def decode : Charset → List UInt8 → Text
  | utf8, bytes => decodeUtf8From 0 bytes
  | utf8Marked, bytes => decodeUtf8From 0 (dropMark bytes)
  | latin1, bytes => bytes.map fun byte => .scalar (Char.ofNat byte.toNat)
  | ascii, bytes =>
    bytes.map fun byte => if byte.toNat < 0x80 then .scalar (Char.ofNat byte.toNat) else .stray byte

/-- The characters of some bytes that all have a meaning. Bytes that end inside the byte order mark
hold no character yet. Positions count from after the mark. -/
def decodeStrict : Charset → List UInt8 → Except DecodeError (List Char)
  | utf8, bytes => decodeUtf8StrictFrom 0 0 bytes
  | utf8Marked, bytes =>
    if bytes.length < 3 ∧ bytes.isPrefixOf byteOrderMark then .ok []
    else decodeUtf8StrictFrom 0 0 (dropMark bytes)
  | latin1, bytes => .ok (bytes.map fun byte => Char.ofNat byte.toNat)
  | ascii, bytes => decodeAsciiStrictFrom 0 bytes

end Charset

end Letterhead
