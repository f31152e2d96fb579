import Letterhead.Text.Quoted

/-!
# What can go wrong with a file

The problems that operations on files meet, with the numbers and words that systems give them.
-/

namespace Letterhead

/-- Why an operation on a file was refused. -/
inductive Problem
  | noEntry
  | permissionDenied
  | busy
  | alreadyExists
  | notDirectory
  | isDirectory
  | invalidArgument
  | nameTooLong
  | notEmpty
  | tooManyLinks
  deriving DecidableEq, Repr

namespace Problem

/-- The number of a problem. -/
def code : Problem → Nat
  | noEntry => 2
  | permissionDenied => 13
  | busy => 16
  | alreadyExists => 17
  | notDirectory => 20
  | isDirectory => 21
  | invalidArgument => 22
  | nameTooLong => 36
  | notEmpty => 39
  | tooManyLinks => 40

/-- A problem in words. -/
def text : Problem → String
  | noEntry => "No such file or directory"
  | permissionDenied => "Permission denied"
  | busy => "Device or resource busy"
  | alreadyExists => "File exists"
  | notDirectory => "Not a directory"
  | isDirectory => "Is a directory"
  | invalidArgument => "Invalid argument"
  | nameTooLong => "File name too long"
  | notEmpty => "Directory not empty"
  | tooManyLinks => "Too many levels of symbolic links"

/-- The problems that only mean that nothing is there. -/
def meansAbsent : Problem → Bool
  | noEntry | notDirectory | tooManyLinks => true
  | _ => false

end Problem

/-- A problem together with the path it was met at, and with the second path of a renaming. -/
structure FileError where
  problem : Problem
  path : String
  second : Option String
  deriving DecidableEq, Repr

/-- The message for a problem. -/
def FileError.message (e : FileError) : String :=
  let base := s!"[Errno {e.problem.code}] {e.problem.text}: {Quoted.quoteString e.path}"
  match e.second with
  | some second => s!"{base} -> {Quoted.quoteString second}"
  | none => base

end Letterhead
