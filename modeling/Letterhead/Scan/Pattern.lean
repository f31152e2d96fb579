import Letterhead.Text.Blank

/-!
# What a line looks like

The kinds of line that the scanner tells apart. Each is a decidable property of the line as a
whole; white space in front and behind does not count where a comment mark is looked for.

## Main definitions

* `Pattern` — the kinds of line
* `Pattern.accepts` — whether a line is of a kind
-/

namespace Letterhead

/-- A kind of line. Kinds may overlap: it is the order of the rules that decides. -/
inductive Pattern
  /-- A comment that opens and closes on this line. -/
  | oneLineComment
  /-- The opening of a comment, with nothing after it. -/
  | commentOpen
  /-- The opening of a documentation comment, with nothing after it. -/
  | docOpen
  /-- A line that starts with the word `package`, or with a longer word. -/
  | packageLine
  /-- Nothing but white space. -/
  | blank
  /-- The close of a comment, with nothing after it. -/
  | commentClose
  /-- A package or import statement. -/
  | statement
  /-- Any line. -/
  | any
  deriving DecidableEq, Repr

namespace Pattern

/-- The opening mark of a comment. -/
def opening : Text := [.scalar '/', .scalar '*']

/-- The closing mark of a comment. -/
def closing : Text := [.scalar '*', .scalar '/']

/-- What stands before the closing mark at the end of a text that has one. -/
def beforeClosing? (t : Text) : Option Text :=
  (closing.reverse.isPrefixOf? t.reverse).map List.reverse

/-- A line whose trimmed form is an opening mark, some text on one line, and a closing mark. -/
def isOneLineComment (line : Text) : Bool :=
  match (opening.isPrefixOf? line.trim).bind beforeClosing? with
  | some inside => !inside.contains Text.lineFeed
  | none => false

/-- The rest of a line after the word it starts with, if that is `package` or `import`. -/
def afterStatementWord? (line : Text) : Option Text :=
  ((Text.ofString "package").isPrefixOf? line).or ((Text.ofString "import").isPrefixOf? line)

/-- A line that starts with `package` or `import`, white space, and then a run of other characters
with a semicolon in it, though not as its first one. -/
def isStatement (line : Text) : Bool :=
  match afterStatementWord? line with
  | some (gap :: rest) =>
    gap.isBlank &&
      (((Text.trimLeft rest).takeWhile fun p => !p.isBlank).drop 1).contains (.scalar ';')
  | _ => false

/-- Whether a line is of a kind. -/
def accepts : Pattern → Text → Bool
  | oneLineComment, line => isOneLineComment line
  | commentOpen, line => line.trim == opening
  | docOpen, line => line.trim == opening ++ [.scalar '*']
  | packageLine, line => (Text.ofString "package").isPrefixOf line
  | blank, line => line.isBlank
  | commentClose, line => closing.isSuffixOf line.trimRight
  | statement, line => isStatement line
  | any, _ => true

end Pattern

end Letterhead
