import Letterhead.Session

/-!
# Work under a backup

A file that is about to be updated is first moved to a backup beside it. If the work then fails,
the backup is moved back; if it succeeds, what is left of the backup is removed. Nothing that is
already there is ever taken for a backup or overwritten by one.

## Main definitions

* `withBackup` — work on a path while what was there is kept as a backup
-/

namespace Letterhead

/-- The path of a backup. -/
def backupOf (path : Path) (suffix : String) : SessionM Path :=
  match path.backup suffix with
  | .ok backup => pure backup
  | .error error => throw (.badName error)

/-- Stop if there is anything at the path of the backup, a link that leads nowhere included. -/
def refuseExisting (backup : Path) : SessionM Unit := do
  if ← holdsNode backup then throw (.backupExists backup)
  if ← isLinkPath backup then throw (.backupExists backup)

/-- Put the backup back and stop on the fault that made it necessary. -/
def restore {α : Type} (path backup : Path) (fault : Fault) : SessionM α := do
  note .debug (Text.ofString s!"Restoring {path} from {backup}")
  replaceFile backup path
  throw fault

/-- Remove the backup, unless the work has done so. -/
def discard (backup : Path) : SessionM Unit := do
  if ← holdsNode backup then unlinkFile backup

/-- Do `work`, which is told where the backup is, while what is at `path` is kept there. -/
def withBackup {α : Type} (path : Path) (suffix : String) (work : Path → SessionM α) :
    SessionM α := do
  let backup ← backupOf path suffix
  refuseExisting backup
  -- Up to here nothing has been changed, so a fault needs no undoing.
  replaceFile path backup
  let result ← tryCatch (work backup) (restore path backup)
  discard backup
  pure result

end Letterhead
