/-!
# SHA-256

The digest of a byte string: it is padded to whole blocks of 64 bytes, and each block is mixed into
eight words in 64 rounds. All arithmetic is on words of 32 bits and wraps.

## Main definitions

* `Sha256.pad` — the padded bytes
* `Sha256.schedule`, `Sha256.compress` — the words of a block, and mixing them in
* `Sha256.digest`, `Sha256.hexDigest` — the digest as bytes and as hexadecimal digits
-/

namespace Letterhead.Sha256

/-- The constants of the rounds. -/
def roundConstants : List UInt32 := [
  0x428a2f98, 0x71374491, 0xb5c0fbcf, 0xe9b5dba5, 0x3956c25b, 0x59f111f1, 0x923f82a4, 0xab1c5ed5,
  0xd807aa98, 0x12835b01, 0x243185be, 0x550c7dc3, 0x72be5d74, 0x80deb1fe, 0x9bdc06a7, 0xc19bf174,
  0xe49b69c1, 0xefbe4786, 0x0fc19dc6, 0x240ca1cc, 0x2de92c6f, 0x4a7484aa, 0x5cb0a9dc, 0x76f988da,
  0x983e5152, 0xa831c66d, 0xb00327c8, 0xbf597fc7, 0xc6e00bf3, 0xd5a79147, 0x06ca6351, 0x14292967,
  0x27b70a85, 0x2e1b2138, 0x4d2c6dfc, 0x53380d13, 0x650a7354, 0x766a0abb, 0x81c2c92e, 0x92722c85,
  0xa2bfe8a1, 0xa81a664b, 0xc24b8b70, 0xc76c51a3, 0xd192e819, 0xd6990624, 0xf40e3585, 0x106aa070,
  0x19a4c116, 0x1e376c08, 0x2748774c, 0x34b0bcb5, 0x391c0cb3, 0x4ed8aa4a, 0x5b9cca4f, 0x682e6ff3,
  0x748f82ee, 0x78a5636f, 0x84c87814, 0x8cc70208, 0x90befffa, 0xa4506ceb, 0xbef9a3f7, 0xc67178f2]

/-- The eight words that are mixed. -/
structure Words where
  a : UInt32
  b : UInt32
  c : UInt32
  d : UInt32
  e : UInt32
  f : UInt32
  g : UInt32
  h : UInt32
  deriving DecidableEq, Repr

/-- The words before the first block. -/
def initial : Words :=
  ⟨0x6a09e667, 0xbb67ae85, 0x3c6ef372, 0xa54ff53a, 0x510e527f, 0x9b05688c, 0x1f83d9ab, 0x5be0cd19⟩

/-- A word turned to the right. -/
def rotate (x : UInt32) (count : UInt32) : UInt32 := (x >>> count) ||| (x <<< (32 - count))

/-- The bytes of a number, the highest first, in so many bytes. -/
def bigEndian (width n : Nat) : List UInt8 :=
  match width with
  | 0 => []
  | width + 1 => bigEndian width (n / 256) ++ [UInt8.ofNat n]

/-- The number that bytes stand for, the highest first. -/
def fromBigEndian (bytes : List UInt8) : Nat := bytes.foldl (fun n byte => n * 256 + byte.toNat) 0

/-- The bytes followed by a mark, by zeros up to eight bytes short of a block, and by their number
of bits. -/
def pad (bytes : List UInt8) : List UInt8 :=
  let zeros := (119 - bytes.length % 64) % 64
  bytes ++ 0x80 :: List.replicate zeros 0 ++ bigEndian 8 (bytes.length * 8)

/-- Pieces of a fixed size; what is left over at the end is dropped. -/
def chunks {α : Type} (size : Nat) : Nat → List α → List (List α)
  | 0, _ => []
  | count + 1, xs => xs.take size :: chunks size count (xs.drop size)

/-- The word that follows in a schedule, whose words so far are given last first. -/
def nextWord (recent : List UInt32) : UInt32 :=
  let word (back : Nat) := recent.getD (back - 1) 0
  let low := rotate (word 15) 7 ^^^ rotate (word 15) 18 ^^^ (word 15 >>> 3)
  let high := rotate (word 2) 17 ^^^ rotate (word 2) 19 ^^^ (word 2 >>> 10)
  word 16 + low + word 7 + high

/-- A schedule, last word first, extended by so many words. -/
def extend : Nat → List UInt32 → List UInt32
  | 0, recent => recent
  | count + 1, recent => extend count (nextWord recent :: recent)

/-- The 64 words of a block. -/
def schedule (block : List UInt8) : List UInt32 :=
  let words := (chunks 4 16 block).map fun bytes => UInt32.ofNat (fromBigEndian bytes)
  (extend 48 words.reverse).reverse

/-- One round. -/
def round (w : Words) (input : UInt32 × UInt32) : Words :=
  let s1 := rotate w.e 6 ^^^ rotate w.e 11 ^^^ rotate w.e 25
  let choice := (w.e &&& w.f) ^^^ (~~~w.e &&& w.g)
  let t1 := w.h + s1 + choice + input.1 + input.2
  let s0 := rotate w.a 2 ^^^ rotate w.a 13 ^^^ rotate w.a 22
  let majority := (w.a &&& w.b) ^^^ (w.a &&& w.c) ^^^ (w.b &&& w.c)
  ⟨t1 + (s0 + majority), w.a, w.b, w.c, w.d + t1, w.e, w.f, w.g⟩

/-- Mix a block into the words. -/
def compress (w : Words) (block : List UInt8) : Words :=
  let m := (roundConstants.zip (schedule block)).foldl round w
  ⟨w.a + m.a, w.b + m.b, w.c + m.c, w.d + m.d, w.e + m.e, w.f + m.f, w.g + m.g, w.h + m.h⟩

/-- The digest of a byte string. -/
def digest (bytes : List UInt8) : List UInt8 :=
  let padded := pad bytes
  let w := (chunks 64 (padded.length / 64) padded).foldl compress initial
  [w.a, w.b, w.c, w.d, w.e, w.f, w.g, w.h].flatMap fun word => bigEndian 4 word.toNat

/-- A byte string in hexadecimal digits. -/
def hex (bytes : List UInt8) : List Char :=
  bytes.flatMap fun byte => [Nat.digitChar (byte.toNat / 16), Nat.digitChar (byte.toNat % 16)]

/-- The digest in hexadecimal digits. -/
def hexDigest (bytes : List UInt8) : String := String.ofList (hex (digest bytes))

end Letterhead.Sha256
