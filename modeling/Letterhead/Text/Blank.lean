import Letterhead.Text.CodePoint

/-!
# Blank characters

What counts as white space in a line, and the trimming built on it. The class is wider than the
six ASCII blanks: it holds the information separators, NEL, and the Unicode spaces and separators.
A stray byte is never blank.

## Main definitions

* `blank`, `CodePoint.isBlank` — the class of blank characters
* `Text.trimLeft`, `Text.trimRight`, `Text.trim` — a text without its outer blanks
* `Text.isBlank` — nothing but blanks
-/

namespace Letterhead

/-- The white space characters of Unicode, and the four information separators. -/
def blank (c : Char) : Bool :=
  let n := c.toNat
  (0x09 ≤ n && n ≤ 0x0D) || (0x1C ≤ n && n ≤ 0x20) || n == 0x85 || n == 0xA0 || n == 0x1680 ||
    (0x2000 ≤ n && n ≤ 0x200A) || n == 0x2028 || n == 0x2029 || n == 0x202F || n == 0x205F ||
    n == 0x3000

/-- A code point is blank when it is a blank character. -/
def CodePoint.isBlank : CodePoint → Bool
  | .scalar c => blank c
  | .surrogate _ => false

/-- `trimEnd p xs` drops the longest final stretch of `xs` on which `p` holds. -/
def trimEnd {α : Type} (p : α → Bool) : List α → List α
  | [] => []
  | x :: xs =>
    match trimEnd p xs with
    | [] => if p x then [] else [x]
    | rest => x :: rest

namespace Text

/-- The text without its leading blanks. -/
def trimLeft (t : Text) : Text := t.dropWhile CodePoint.isBlank

/-- The text without its trailing blanks. -/
def trimRight (t : Text) : Text := trimEnd CodePoint.isBlank t

/-- The text without its leading and trailing blanks. -/
def trim (t : Text) : Text := t.trimLeft.trimRight

/-- A text of blanks only, the empty text included. -/
def isBlank (t : Text) : Bool := t.all CodePoint.isBlank

end Text

end Letterhead
