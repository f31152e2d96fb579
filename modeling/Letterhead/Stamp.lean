import Letterhead.Digest.Sha256
import Letterhead.Notice
import Letterhead.Path
import Letterhead.Text.Quoted

/-!
# Run stamps

The identifier and the time that a report carries. In a reproducible run both depend on nothing but
the inputs: the time is fixed, and the identifier is a digest of the requested paths and the notice.

## Main definitions

* `Stamp` — an identifier and a time
* `Stamp.material` — the bytes that a reproducible identifier is made of
* `Stamp.reproducible` — the stamp of a reproducible run
* `Stamp.randomId`, `Stamp.timeText` — the parts of the stamp of any other run
-/

namespace Letterhead

/-- The identifier and the time of a run. -/
structure Stamp where
  runId : String
  createdAt : String
  deriving DecidableEq, Repr

namespace Stamp

/-- The time of every reproducible run. -/
def fixedTime : String := "2000-01-01T00:00:00+00:00"

/-- The bytes of a string in UTF-8. -/
def utf8 (s : String) : List UInt8 := s.toList.flatMap String.utf8EncodeChar

/-- The paths, each ended by a zero byte, and then the lines, each ended by a line feed. -/
def material (paths : List Path) (lines : List String) : List UInt8 :=
  paths.flatMap (fun path => utf8 path.toString ++ [0x00]) ++
    lines.flatMap fun line => utf8 line ++ [0x0A]

/-- The identifier of a reproducible run: twelve digits of the digest. -/
def reproducibleId (paths : List Path) (lines : List String) : String :=
  "ci-" ++ String.ofList ((Sha256.hexDigest (material paths lines)).toList.take 12)

/-- The stamp of a reproducible run. -/
def reproducible (paths : List Path) (notice : Notice) : Stamp :=
  ⟨reproducibleId paths notice.lines, fixedTime⟩

/-- A number in a fixed number of decimal digits. -/
def paddedNumber (width n : Nat) : String :=
  let digits := (toString n).toList
  String.ofList (List.replicate (width - digits.length) '0' ++ digits)

/-- The digits of a byte in hexadecimal. -/
def byteDigits (byte : UInt8) : String := String.ofList (Quoted.hexDigits 2 byte.toNat)

/-- A random identifier made of sixteen bytes: all of them but the six bits that tell its kind. -/
def randomId (bytes : List UInt8) : String :=
  let marked := bytes.mapIdx fun index byte =>
    -- The kind of an identifier is told by six bits: four in the seventh byte, two in the ninth.
    if index = 6 then (byte &&& 0x0F) ||| 0x40
    else if index = 8 then (byte &&& 0x3F) ||| 0x80
    else byte
  let group (first length : Nat) : String :=
    String.join (((marked.drop first).take length).map byteDigits)
  String.intercalate "-" [group 0 4, group 4 2, group 6 2, group 8 2, group 10 6]

/-- A moment in universal time as it is written in a report. Whole seconds have no fraction. -/
def timeText (year month day hour minute second microsecond : Nat) : String :=
  let date := [paddedNumber 4 year, paddedNumber 2 month, paddedNumber 2 day]
  let clock := [paddedNumber 2 hour, paddedNumber 2 minute, paddedNumber 2 second]
  let fraction := if microsecond = 0 then "" else "." ++ paddedNumber 6 microsecond
  String.intercalate "-" date ++ "T" ++ String.intercalate ":" clock ++ fraction ++ "+00:00"

end Stamp

end Letterhead
