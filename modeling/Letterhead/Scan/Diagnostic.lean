import Letterhead.Text.CodePoint

/-!
# Diagnostics

A remark made while a file was scanned. It names the file and the line it belongs to, so that no
reader has to know what was being scanned.
-/

namespace Letterhead

/-- How much a remark matters. -/
inductive Severity
  | info
  | warning
  deriving DecidableEq, Repr

namespace Severity

/-- All severities, in the order they are counted in. -/
def all : List Severity := [info, warning]

/-- The word for a severity in reports. -/
def label : Severity → String
  | info => "info"
  | warning => "warning"

/-- The severity that a word stands for. -/
def ofLabel? (word : String) : Option Severity := all.find? (·.label == word)

end Severity

/-- A remark on one line of one file. -/
structure Diagnostic where
  severity : Severity
  message : Text
  source : String
  /-- The number of the line, from one. -/
  line : Int
  deriving DecidableEq, Repr

/-- A remark as one line of text: file, line number, message. -/
def Diagnostic.toText (d : Diagnostic) : Text :=
  Text.ofString s!"{d.source}:{d.line}: " ++ d.message

end Letterhead
