import Letterhead.Text.CodePoint

/-!
# Lines

Two ways to cut a text into lines. A source file is cut at line feeds only, after its line ends
have been unified, so that a form feed inside a line survives. A notice is cut at every character
that Unicode or tradition takes for a line end.

## Main definitions

* `Text.unifyLineEnds` — CR LF and CR become LF
* `Text.lines`, `Text.unlines` — cutting at line feeds, and the text with one after every line
* `separatedLines` — cutting at all ten separators
-/

namespace Letterhead

namespace Text

/-- The text with every CR LF, and every other CR, replaced by a line feed. -/
def unifyLineEnds : Text → Text
  | .scalar '\r' :: .scalar '\n' :: rest => lineFeed :: unifyLineEnds rest
  | .scalar '\r' :: rest => lineFeed :: unifyLineEnds rest
  | c :: rest => c :: unifyLineEnds rest
  | [] => []

/-- The list without its last element, when that is empty. -/
def dropFinalEmpty {α : Type} : List (List α) → List (List α)
  | [] => []
  | [[]] => []
  | piece :: rest => piece :: dropFinalEmpty rest

/-- The pieces between line feeds; a final line feed ends its line and begins no other. -/
def lines (t : Text) : List Text := dropFinalEmpty (t.splitOn lineFeed)

/-- The lines one after the other, each ended by a line feed. -/
def unlines (ls : List Text) : Text := ls.flatMap (· ++ [lineFeed])

@[simp] theorem unlines_nil : unlines [] = [] := rfl

@[simp] theorem unlines_cons (l : Text) (ls : List Text) :
    unlines (l :: ls) = l ++ lineFeed :: unlines ls := by simp [unlines]

end Text

/-- The characters that end a line of a notice: LF, VT, FF, CR, the separators FS, GS and RS, NEL,
and the line and paragraph separators. -/
def isLineSeparator (c : Char) : Bool :=
  let n := c.toNat
  (0x0A ≤ n && n ≤ 0x0D) || (0x1C ≤ n && n ≤ 0x1E) || n == 0x85 || n == 0x2028 || n == 0x2029

/-- The lines of `cs`, when `line` holds what has been read of the first one, last character first.
CR LF ends one line, and an end of line at the end of the text begins no other. -/
def separatedLinesFrom (line : List Char) : List Char → List (List Char)
  | [] => if line.isEmpty then [] else [line.reverse]
  | '\r' :: '\n' :: rest => line.reverse :: separatedLinesFrom [] rest
  | c :: rest =>
    if isLineSeparator c then line.reverse :: separatedLinesFrom [] rest
    else separatedLinesFrom (c :: line) rest

/-- The lines of a notice's text. -/
def separatedLines (cs : List Char) : List (List Char) := separatedLinesFrom [] cs

end Letterhead
