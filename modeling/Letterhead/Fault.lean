import Letterhead.Encoding.Decode
import Letterhead.Encoding.Encode
import Letterhead.FileSystem.Problem
import Letterhead.Path

/-!
# Faults

Everything that can stop an operation. Only some faults are the affair of one file alone: those of
the file system, a backup in the way included. A batch notes them and goes on; the others end it.

## Main definitions

* `Fault` — why an operation stopped
* `Fault.concernsOneFile` — whether a batch goes on after it
* `Fault.message` — the fault in words
-/

namespace Letterhead

/-- Why an operation stopped. -/
inductive Fault
  /-- The file system refused. -/
  | file (error : FileError)
  /-- There is something where the backup would go. -/
  | backupExists (backup : Path)
  /-- A path holds the character that no name can have. -/
  | embeddedNul
  /-- There is no name for the backup. -/
  | badName (error : PathError)
  | unknownCharset (name : String)
  /-- The name of a charset holds the character that no name can have. -/
  | nulInCharset
  /-- A backup is wanted, but the settings give it no suffix. -/
  | noBackupSuffix
  /-- The suffixes of the wanted files hold one that is no word. -/
  | noSuffix
  | undecodable (error : DecodeError)
  | unencodable (error : EncodeError)
  /-- Directories lie too deep in each other to be listed. -/
  | nestedTooDeep
  /-- The notice is blank. -/
  | blankNotice
  /-- The notice in this file is blank. -/
  | blankNoticeFile (path : Path)
  /-- The file of the notice cannot be read or decoded. -/
  | unreadableNotice (path : Path) (cause : Fault)
  /-- The work inside a backup bracket gave up. -/
  | aborted (reason : String)
  deriving DecidableEq, Repr

namespace Fault

/-- Whether a fault concerns no more than the file it was met at. -/
def concernsOneFile : Fault → Bool
  | file _ | backupExists _ => true
  | _ => false

/-- Whether a fault makes the notice unusable. -/
def concernsNotice : Fault → Bool
  | blankNotice | blankNoticeFile _ | unreadableNotice _ _ => true
  | _ => false

/-- A fault in words. -/
def message : Fault → String
  | file error => error.message
  | backupExists backup => s!"backup already exists: {backup}"
  | embeddedNul => "embedded null byte"
  | badName error => error.message
  | unknownCharset name => s!"unknown encoding: {name}"
  | nulInCharset => "embedded null character"
  | noBackupSuffix => "can only concatenate str (not \"list\") to str"
  | noSuffix => "'list' object has no attribute 'strip'"
  | undecodable error => error.message
  | unencodable error => error.message
  | nestedTooDeep => "maximum recursion depth exceeded"
  | blankNotice => "copyright text is empty"
  | blankNoticeFile path => s!"{path}: copyright text is empty"
  | unreadableNotice path cause => s!"cannot read copyright file {path}: {cause.message}"
  | aborted reason => reason

end Fault

end Letterhead
