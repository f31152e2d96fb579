import Letterhead.Scan.Diagnostic

/-!
# Outcomes

What happened to one path in a batch.
-/

namespace Letterhead

/-- The result for one file. -/
inductive FileStatus
  | updated
  | unchanged
  | skipped
  | failed
  deriving DecidableEq, Repr

namespace FileStatus

/-- All results, in the order they are counted in. -/
def all : List FileStatus := [updated, unchanged, skipped, failed]

/-- The word for a result in reports. -/
def label : FileStatus → String
  | updated => "updated"
  | unchanged => "unchanged"
  | skipped => "skipped"
  | failed => "failed"

/-- The result that a word stands for. -/
def ofLabel? (word : String) : Option FileStatus := all.find? (·.label == word)

end FileStatus

/-- What happened to one path. -/
structure Outcome where
  path : String
  status : FileStatus
  diagnostics : List Diagnostic := []
  /-- What went wrong, or nothing. -/
  error : String := ""
  deriving DecidableEq, Repr

end Letterhead
