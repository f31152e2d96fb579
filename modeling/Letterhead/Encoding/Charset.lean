/-!
# Charsets

The charsets a file can be kept in, and the names they go by.

## Main definitions

* `Charset` — UTF-8, UTF-8 led by a byte order mark, Latin-1 and ASCII
* `Charset.ofName?` — the charset a registered name stands for
-/

namespace Letterhead

/-- A charset. `utf8Marked` is UTF-8 with a byte order mark in front. -/
inductive Charset
  | utf8
  | utf8Marked
  | latin1
  | ascii
  deriving DecidableEq, Repr, Inhabited

namespace Charset

/-- The name a charset has in messages; a byte order mark does not change it. -/
def label : Charset → String
  | utf8 | utf8Marked => "utf-8"
  | latin1 => "latin-1"
  | ascii => "ascii"

/-- The byte order mark in UTF-8. -/
def byteOrderMark : List UInt8 := [0xEF, 0xBB, 0xBF]

/-- The own name of a charset in its plain form: lower case, words joined by low lines. -/
def ownName : Charset → String
  | utf8 => "utf_8"
  | utf8Marked => "utf_8_sig"
  | latin1 => "latin_1"
  | ascii => "ascii"

/-- The other names of a charset in their plain form. -/
def aliases : Charset → List String
  | utf8 => ["utf8", "u8", "utf", "utf8_ucs2", "utf8_ucs4", "cp65001"]
  | utf8Marked => []
  | latin1 =>
    ["latin1", "latin", "l1", "iso_8859_1", "iso8859_1", "iso8859", "8859", "iso_8859_1_1987",
      "iso_ir_100", "ibm819", "cp819", "csisolatin1"]
  | ascii =>
    ["us_ascii", "us", "646", "ansi_x3.4_1968", "ansi_x3_4_1968", "ansi_x3.4_1986", "cp367",
      "csascii", "ibm367", "iso646_us", "iso_646.irv_1991", "iso_ir_6"]

/-- The plain form of a name, when `gap` tells whether characters have been left out since the last
one kept and `started` whether any has been kept. -/
def plainNameFrom (started gap : Bool) : List Char → List Char
  | [] => []
  | c :: rest =>
    if c.isAlphanum || c == '.' then
      (if gap && started then ['_', c.toLower] else [c.toLower]) ++ plainNameFrom true false rest
    else plainNameFrom started true rest

/-- A name in lower case, with every run of other characters than letters, digits and full stops
made one low line between words. -/
def plainName (name : String) : String := String.ofList (plainNameFrom false false name.toList)

/-- A name with low lines for its full stops. -/
def withoutStops (name : String) : String :=
  String.ofList (name.toList.map fun c => if c = '.' then '_' else c)

/-- Whether a name in plain form is one of a charset. In an alias full stops may stand for low
lines. -/
def isNamed (charset : Charset) (plain : String) : Bool :=
  plain == charset.ownName || charset.aliases.contains plain ||
    charset.aliases.contains (withoutStops plain)

/-- The charset that a name stands for, however it is spelt. -/
def ofName? (name : String) : Option Charset :=
  [utf8, utf8Marked, latin1, ascii].find? (·.isNamed (plainName name))

end Charset

end Letterhead
