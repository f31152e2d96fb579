import Letterhead.Path

/-!
# Settings

The settings of an update. They name the file of the notice, what to call a backup, the charset of
the files, and which files of a directory are taken.
-/

namespace Letterhead

/-- The name of the tool. -/
def toolName : String := "copyright-header"

/-- The version of the tool. -/
def version : String := "0.1.0"

/-- What is added to the name of a file to name its backup, when nothing else is wanted. -/
def plainBackupSuffix : String := ".bak"

/-- The settings of an update. -/
structure Config where
  /-- The file that holds the notice. -/
  noticeFile : Path := ⟨.relative, ["COPYRIGHT"]⟩
  /-- What is added to the name of a file to name its backup. Without it no backup can be made. -/
  backupSuffix : Option String := some plainBackupSuffix
  /-- The name of the charset of the files. -/
  charsetName : String := "utf-8"
  /-- The names of directories that belong to version control. -/
  ignoredNames : List String := [".git", ".svn", ".hg", ".bzr", "CVS"]
  /-- The suffixes of the files that are taken from a directory. -/
  suffixes : List String := [".java", ".c", ".h", ".cc", ".cpp", ".hpp"]
  /-- Whether to report only, and write nothing. -/
  checkOnly : Bool := false
  deriving DecidableEq, Repr

/-- The name of the environment variable that names another file for the notice. -/
def noticeFileVariable : String := "COPYRIGHT_HEADER_FILE"

/-- The file of the notice when none is given: the one that the environment names, if it names
any. -/
def defaultNoticeFile (environment : Option String) : Path :=
  match environment with
  | none | some "" => ⟨.relative, ["COPYRIGHT"]⟩
  | some value => Path.parse value

end Letterhead
