import Letterhead.Encoding.Charset
import Letterhead.Text.CodePoint
import Letterhead.Text.Quoted

/-!
# Encoding

The bytes of a text in a charset. A stray byte is written as the byte it stands for, so that what
the lenient reading took in comes out unchanged.

## Main definitions

* `Charset.encode` — the bytes of a text that may hold stray bytes
* `Charset.encodeStrict` — the bytes of a text that may not
* `EncodeError` — which characters the charset has no bytes for
-/

namespace Letterhead

/-- Neighbouring code points that a charset has no bytes for. -/
structure EncodeError where
  charset : Charset
  /-- The number of code points before them. -/
  position : Nat
  /-- The code points at fault. -/
  run : Text
  deriving DecidableEq, Repr

namespace EncodeError

/-- What is wrong, in words. -/
def reason (e : EncodeError) : String :=
  match e.charset with
  | .ascii => "ordinal not in range(128)"
  | .latin1 => "ordinal not in range(256)"
  | .utf8 | .utf8Marked => "surrogates not allowed"

/-- The message for a failed writing; a single character at fault is shown by number. -/
def message (e : EncodeError) : String :=
  let place :=
    match e.run with
    | [p] => s!"character '{String.ofList (Quoted.escapeNumber p.value)}' in position {e.position}"
    | run => s!"characters in position {e.position}-{e.position + run.length - 1}"
  s!"'{e.charset.label}' codec can't encode {place}: {e.reason}"

end EncodeError

namespace Charset

/-- The bytes of one code point, if the charset itself has some for it. -/
def bytesOf? : Charset → CodePoint → Option (List UInt8)
  | utf8, .scalar c | utf8Marked, .scalar c => some (String.utf8EncodeChar c)
  | latin1, .scalar c => if c.toNat < 0x100 then some [UInt8.ofNat c.toNat] else none
  | ascii, .scalar c => if c.toNat < 0x80 then some [UInt8.ofNat c.toNat] else none
  | _, .surrogate _ => none

/-- The bytes of one code point, a stray byte giving itself. -/
def bytesOfLenient? (charset : Charset) (p : CodePoint) : Option (List UInt8) :=
  (charset.bytesOf? p).or (p.strayByte?.map ([·]))

/-- The bytes of a text point by point, when `position` points came before. The first point without
bytes fails the whole, together with the foreign points right after it. -/
def encodeWith (charset : Charset) (bytes? : CodePoint → Option (List UInt8)) (position : Nat) :
    Text → Except EncodeError (List UInt8)
  | [] => .ok []
  | p :: rest =>
    match bytes? p with
    | some bytes =>
      match encodeWith charset bytes? (position + 1) rest with
      | .ok more => .ok (bytes ++ more)
      | .error e => .error e
    | none => .error ⟨charset, position, p :: rest.takeWhile fun q => (charset.bytesOf? q).isNone⟩

/-- The mark that every file in the charset starts with. -/
def mark : Charset → List UInt8
  | utf8Marked => byteOrderMark
  | _ => []

/-- The bytes of a file that holds the text. -/
def encode (charset : Charset) (t : Text) : Except EncodeError (List UInt8) :=
  match encodeWith charset charset.bytesOfLenient? 0 t with
  | .ok bytes => .ok (charset.mark ++ bytes)
  | .error e => .error e

/-- The bytes of a text without stray bytes. -/
def encodeStrict (charset : Charset) (t : Text) : Except EncodeError (List UInt8) :=
  match encodeWith charset charset.bytesOf? 0 t with
  | .ok bytes => .ok (charset.mark ++ bytes)
  | .error e => .error e

end Charset

end Letterhead
