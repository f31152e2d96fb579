import Letterhead.Scan.Pattern
import Letterhead.Text.Lines

/-!
# The notice

The header that every file is to carry, as a list of lines. It is loaded once and shared by every
update. Surrounding blank lines are not part of it.

Its lines are strings, and not `Text` as those of the files are: a notice file is decoded strictly, so
no byte of it is kept as a lone surrogate. A text with surrogates in it, which only a caller could make
a notice of, is left out.

## Main definitions

* `Notice` — the lines of a notice
* `Notice.ofString?` — the notice in a text, if the text is not blank
* `Notice.isBlockComment` — whether a later run would recognise the notice as a header
-/

namespace Letterhead

/-- The header text that files are to carry, without lone surrogates. -/
structure Notice where
  lines : List String
  deriving DecidableEq, Repr

namespace Notice

/-- The lines of a notice as lines of a file. -/
def toLines (n : Notice) : List Text := n.lines.map Text.ofString

/-- A line of white space only. -/
def isBlankLine (line : List Char) : Bool := line.all blank

/-- The lines from the first to the last one that is not blank. -/
def trimBlankLines (ls : List (List Char)) : List (List Char) :=
  trimEnd isBlankLine (ls.dropWhile isBlankLine)

/-- The notice in a proper text: its lines without the blank ones around them. -/
def ofString? (s : String) : Option Notice :=
  match trimBlankLines (separatedLines s.toList) with
  | [] => none
  | ls => some ⟨ls.map String.ofList⟩

/-- Whether a notice is itself a block comment: two lines or more, a comment opened on the first and
closed on the last. Only such a notice is found again, and replaced by itself, in a later run. -/
def isBlockComment (n : Notice) : Bool :=
  match n.toLines with
  | first :: second :: rest =>
    Pattern.commentOpen.accepts first &&
      Pattern.commentClose.accepts ((second :: rest).getLast (by simp))
  | _ => false

end Notice

end Letterhead
