import Letterhead.Backup
import Letterhead.Config
import Letterhead.Notice
import Letterhead.Outcome
import Letterhead.Scan.Revision

/-!
# Updating one file

The whole revision is worked out before the file is touched. Then, under a backup, either the new
text is written and given the old file's permission bits, or the backup is moved back so that an
unchanged file keeps its very bytes. A link is followed: it is the file it leads to that is
written.

## Main definitions

* `Updater` — a notice and the settings for putting it in
* `Updater.inspect` — reading and scanning a file
* `Updater.check`, `Updater.update` — reporting what an update would do, and doing it
-/

namespace Letterhead

/-- A notice together with the settings for putting it into files. -/
structure Updater where
  notice : Notice
  config : Config

/-- A file as it was read, and what is to become of it. -/
structure Inspection where
  content : List UInt8
  revision : Revision

/-- Refuse the name of a charset with a character that no name can have. -/
def refuseNul (charsetName : String) : SessionM Unit :=
  if charsetName.toList.contains '\x00' then throw .nulInCharset else pure ()

/-- The charset of a name. -/
def charsetNamed (name : String) : SessionM Charset :=
  match Charset.ofName? name with
  | some charset => pure charset
  | none => throw (.unknownCharset name)

namespace Updater

/-- The charset of the files. -/
def charset (u : Updater) : SessionM Charset := charsetNamed u.config.charsetName

/-- The text of a file with the given bytes. No charset is needed where there are no bytes. -/
def decoded (u : Updater) (bytes : List UInt8) : SessionM Text := do
  refuseNul u.config.charsetName
  if bytes.isEmpty then pure []
  else
    let charset ← u.charset
    pure (charset.decode bytes)

/-- The bytes of a text in the charset of the files. -/
def encoded (u : Updater) (t : Text) : SessionM (List UInt8) := do
  let charset ← u.charset
  match charset.encode t with
  | .ok bytes => pure bytes
  | .error error => throw (.unencodable error)

/-- What becomes of a file with the given text. -/
def revisionOf (u : Updater) (path : Path) (t : Text) : Revision :=
  revise u.notice.toLines path.toString t.unifyLineEnds.lines

/-- Read a file and scan its lines. -/
def inspect (u : Updater) (path : Path) : SessionM Inspection := do
  let content ← readFile path
  let t ← u.decoded content
  pure ⟨content, u.revisionOf path t⟩

/-- The outcome for a file: updated when the revision changes what is on disk, byte by byte. -/
def outcome (u : Updater) (path : Path) (i : Inspection) : SessionM Outcome := do
  let rendered ← u.encoded i.revision.render
  let modified := i.revision.changed && rendered != i.content
  pure
    { path := path.toString
      status := if modified then .updated else .unchanged
      diagnostics := i.revision.diagnostics }

/-- Report what an update would do, and write nothing. -/
def check (u : Updater) (path : Path) : SessionM Outcome := do
  let i ← u.inspect path
  u.outcome path i

/-- Write a text to a file. The file is made before the text is turned into bytes. -/
def writeText (u : Updater) (path : Path) (t : Text) : SessionM Unit := do
  writeFile path []
  let bytes ← u.encoded t
  writeFile path bytes

/-- Put the revision in the place of a file that has been moved to `backup`. -/
def install (u : Updater) (i : Inspection) (target backup : Path) : SessionM Unit := do
  if i.revision.changed then
    u.writeText target i.revision.render
    copyFileMode backup target
  else
    replaceFile backup target

/-- The path that is written for `path`: the one a link leads to, and else `path` itself. -/
def targetOf (path : Path) : SessionM Path := do
  if ← isLinkPath path then resolvePath path else pure path

/-- What is added to the name of a file to name its backup. -/
def backupSuffix (u : Updater) : SessionM String :=
  match u.config.backupSuffix with
  | some suffix => pure suffix
  | none => throw .noBackupSuffix

/-- Update a file. -/
def update (u : Updater) (path : Path) : SessionM Outcome := do
  -- All that can go wrong with reading goes wrong before the file is moved.
  let i ← u.inspect path
  let target ← targetOf path
  withBackup target (← u.backupSuffix) (u.install i target)
  u.outcome path i

end Updater

end Letterhead
