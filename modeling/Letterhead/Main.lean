import Letterhead.Command
import Std.Time.Format

/-!
# The executable

The outer layer: the part of the disk that a command line can reach is read, the command is carried
out on it, and the files that have changed are written back in place, so that they keep their
permission bits.
-/

namespace Letterhead

/-- A location as a name on disk. -/
def diskName (place : Location) : String := "/" ++ String.intercalate "/" place

/-- A link as it is kept: to the path, free of links, that it leads to. A link that leads nowhere is
kept as one to a name that nothing can have. -/
def readLink (place : Location) : IO Node := do
  let target ← IO.FS.realPath (diskName place)
  if ← target.pathExists then pure (.link target.toString) else pure (.link "/\x00")

/-- Whether something can be done on disk. -/
def succeeds {α : Type} (action : IO α) : IO Bool := do
  try
    let _ ← action
    pure true
  catch _ => pure false

/-- The permission bits of a directory on disk, by what the user may do there. That it may be changed
is taken for granted. -/
def readDirectoryMode (place : Location) : IO Nat := do
  let directory := (← IO.FS.realPath "/") / diskName place
  let search := if ← succeeds (directory / ".").metadata then 0o100 else 0
  let list := if ← succeeds directory.readDir then 0o400 else 0
  pure (0o200 + search + list)

/-- What is at a location on disk, if there is anything that can be read. -/
def readNode (place : Location) : IO (Option Node) := do
  let root ← IO.FS.realPath "/"
  try
    let metadata ← (root / diskName place).symlinkMetadata
    match metadata.type with
    | .dir =>
      let mode ← readDirectoryMode place
      pure (some (.directory mode))
    | .symlink => some <$> readLink place
    | _ =>
      let bytes ← IO.FS.readBinFile (diskName place)
      pure (some (.file FileSystem.newFileMode bytes.toList))
  catch _ => pure none

/-- Read what is at a location into a file system. -/
def loadNode (fs : FileSystem) (place : Location) : IO (FileSystem × Option Node) := do
  match ← readNode place with
  | some node => pure (fs.put place node, some node)
  | none => pure (fs, none)

/-- The names in a directory on disk. -/
def readNames (place : Location) : IO (List String) := do
  let root ← IO.FS.realPath "/"
  try
    let entries ← (root / diskName place).readDir
    pure (entries.toList.map (·.fileName))
  catch _ => pure []

/-- Read all that is below a directory, links not followed. -/
partial def loadBelow (fs : FileSystem) (place : Location) : IO FileSystem := do
  (← readNames place).foldlM
    (fun fs name => do
      match ← loadNode fs (place ++ [name]) with
      | (fs, some (.directory _)) => loadBelow fs (place ++ [name])
      | (fs, _) => pure fs)
    fs

/-- Read what a look-up of names passes, and give the location it comes to. -/
partial def loadAlong (fs : FileSystem) (here : Location) : List String → IO (FileSystem × Location)
  | [] => pure (fs, here)
  | name :: rest =>
    if name == "" || name == "." then loadAlong fs here rest
    else if name == ".." then loadAlong fs here.dropLast rest
    else do
      match ← loadNode fs (here ++ [name]) with
      | (fs, some (.link target)) => loadAlong fs [] (slashPieces target ++ rest)
      | (fs, some (.directory _)) => loadAlong fs (here ++ [name]) rest
      | (fs, _) => pure (fs, here ++ [name])

/-- Read all that a command can reach from a path: everything below it if it is a directory, and
otherwise everything beside it, since a backup would go there. -/
def loadPath (fs : FileSystem) (path : Path) : IO FileSystem := do
  let start := if path.anchor = .relative then fs.workingDirectory else []
  let (fs, place) ← loadAlong fs start path.steps
  if (fs.node? place).any Node.isDirectory then loadBelow fs place
  else
    let parent := place.dropLast
    (← readNames parent).foldlM (fun fs name => Prod.fst <$> loadNode fs (parent ++ [name])) fs

/-- Write the files back that a command has changed, and remove those that it has removed. -/
def storeChanges (before after : FileSystem) : IO Unit := do
  for (place, node) in after.nodes.toList do
    match node with
    | .file _ bytes =>
      -- Writing in place keeps the permission bits on disk.
      if before.node? place != some node then
        IO.FS.writeBinFile (diskName place) ⟨bytes.toArray⟩
    | _ => pure ()
  for (place, _) in before.nodes.toList do
    if (after.node? place).isNone then IO.FS.removeFile (diskName place)

/-- The stamp of a run that starts now. -/
def freshStamp : IO Stamp := do
  let bytes ← IO.getRandomBytes 16
  let now := Std.Time.DateTime.ofTimestampWithZone (← Std.Time.Timestamp.now) Std.Time.TimeZone.UTC
  pure
    { runId := Stamp.randomId bytes.toList
      createdAt :=
        Stamp.timeText now.year.toInt.toNat now.month.toNat now.day.toNat now.hour.toNat
          now.minute.toNat now.second.toNat (now.nanosecond.toNat / 1000) }

/-- The paths that a command line makes the tool look at. -/
def reachedPaths (environment : Option String) (words : List String) : List Path :=
  match Options.parse words with
  | .ok o => o.noticePath environment :: o.paths.map Path.parse
  | .error _ => []

end Letterhead

open Letterhead in
def main (words : List String) : IO UInt32 := do
  let environment ← IO.getEnv noticeFileVariable
  let directory := (Path.parse (← IO.FS.realPath (← IO.currentDir)).toString).names
  let before ← (reachedPaths environment words).foldlM loadPath (FileSystem.empty directory)
  let (transcript, after) := Command.run environment (← freshStamp) words before
  storeChanges before after
  IO.print transcript.output
  IO.eprint (transcript.messages ++ transcript.ending.complaint)
  pure (UInt32.ofNat transcript.ending.exitStatus)
