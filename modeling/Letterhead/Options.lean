import Letterhead.Config
import Letterhead.Text.Digit
import Letterhead.Text.Quoted

/-!
# Command-line options

A command line is read word by word. Long options may be cut short as long as they stay unique and
may have their value attached with an equals sign; short options may be bundled. An attached double
dash is no value, but takes away the one there was. Everything after a double dash that stands alone
is a path. The paths stand together: paths after a later option are not accepted.

## Main definitions

* `Switch` — the options
* `Word`, `Word.classify` — what a word of a command line is
* `Options`, `Options.parse` — what a command line asks for, or a `Halt`
-/

namespace Letterhead

/-- An option. -/
inductive Switch
  | help
  | noticeFile
  | backupSuffix
  | suffix
  | check
  | json
  | reproducible
  | verbose
  | quiet
  | version
  deriving DecidableEq, Repr

namespace Switch

/-- All options, in the order of the help text. -/
def all : List Switch :=
  [help, noticeFile, backupSuffix, suffix, check, json, reproducible, verbose, quiet, version]

/-- The ways to write an option. -/
def spellings : Switch → List String
  | help => ["-h", "--help"]
  | noticeFile => ["--copyright-file"]
  | backupSuffix => ["--backup-suffix"]
  | suffix => ["--ext"]
  | check => ["--check"]
  | json => ["--json"]
  | reproducible => ["--ci", "--deterministic"]
  | verbose => ["-v", "--verbose"]
  | quiet => ["-q", "--quiet"]
  | version => ["--version"]

/-- Whether an option has a value. -/
def takesValue : Switch → Bool
  | noticeFile | backupSuffix | suffix => true
  | _ => false

/-- An option as it is called in messages. -/
def title (s : Switch) : String := String.intercalate "/" s.spellings

/-- All ways to write an option, each with the option. -/
def table : List (String × Switch) :=
  all.flatMap fun s => s.spellings.map fun spelling => (spelling, s)

/-- The option that is written in a given way. -/
def ofSpelling? (spelling : String) : Option Switch := table.lookup spelling

end Switch

/-- What is wrong with a command line. -/
inductive UsageError
  | missingPaths
  | conflict (later earlier : Switch)
  | missingValue (s : Switch)
  | unwantedValue (s : Switch) (value : String)
  | unrecognized (words : List String)
  | ambiguous (word : String) (spellings : List String)
  deriving DecidableEq, Repr

/-- What is wrong with a command line, in words. -/
def UsageError.message : UsageError → String
  | missingPaths => "the following arguments are required: PATH"
  | conflict later earlier => s!"argument {later.title}: not allowed with argument {earlier.title}"
  | missingValue s => s!"argument {s.title}: expected one argument"
  | unwantedValue s value =>
    s!"argument {s.title}: ignored explicit argument {Quoted.quoteString value}"
  | unrecognized words => "unrecognized arguments: " ++ String.intercalate " " words
  | ambiguous word spellings =>
    s!"ambiguous option: {word} could match " ++ String.intercalate ", " spellings

/-- Why nothing is to be done for a command line. -/
inductive Halt
  | help
  | version
  | usage (error : UsageError)
  deriving DecidableEq, Repr

/-- What a word of a command line is. -/
inductive Word
  | plain (word : String)
  /-- The double dash after which there are no more options. -/
  | divider
  /-- An option; `short` holds if it is written with one dash. What is written right behind it in
  the same word, or behind an equals sign, is attached. -/
  | option (s : Switch) (short : Bool) (attached : Option (List Char))
  /-- Something that looks like an option and is none. -/
  | unknown (word : String)
  deriving DecidableEq, Repr

namespace Word

/-- Whether characters are all digits, and at least one. -/
def areDigits (cs : List Char) : Bool := !cs.isEmpty && cs.all fun c => (digitValue? c).isSome

/-- Whether a word is a negative number: digits after a dash, perhaps with a point before the last
of them. A line feed at the end does not count. -/
def isNegativeNumber : List Char → Bool
  | '-' :: cs =>
    let body := if cs.getLast? = some '\n' then cs.dropLast else cs
    let whole := body.takeWhile (· != '.')
    areDigits body ||
      (whole.all (fun c => (digitValue? c).isSome) &&
        (body.drop whole.length).head? == some '.' && areDigits (body.drop (whole.length + 1)))
  | _ => false

/-- A word cut at its first equals sign, if it has one. -/
def cutAtEquals (cs : List Char) : List Char × Option (List Char) :=
  let before := cs.takeWhile (· != '=')
  match cs.drop before.length with
  | _ :: text => (before, some text)
  | [] => (before, none)

/-- The options that a word with two dashes may be short for. -/
def longCandidates (start : List Char) : List (String × Switch) :=
  Switch.table.filter fun entry => start.isPrefixOf entry.1.toList

/-- Whether a word starts with two dashes. -/
def hasTwoDashes (cs : List Char) : Bool := ['-', '-'].isPrefixOf cs

/-- What a word is that starts with a dash and is not the spelling of an option. -/
def classifyDashed (word : String) (cs : List Char) : Except UsageError Word :=
  let (start, attached) := cutAtEquals cs
  match attached, Switch.ofSpelling? (String.ofList start) with
  | some attached, some s => .ok (.option s (!hasTwoDashes cs) (some attached))
  | _, _ =>
    let remaining :=
      if isNegativeNumber cs || cs.contains ' ' then .ok (.plain word) else .ok (.unknown word)
    if hasTwoDashes cs then
      match longCandidates start with
      | [] => remaining
      | [(_, s)] => .ok (.option s false attached)
      | candidates => .error (.ambiguous word (candidates.map (·.1)))
    else
      match Switch.ofSpelling? (String.ofList (cs.take 2)) with
      | some s => .ok (.option s true (some (cs.drop 2)))
      | none => remaining

/-- What a word is, before any divider. -/
def classify (word : String) : Except UsageError Word :=
  match word.toList with
  | '-' :: c :: cs =>
    match Switch.ofSpelling? word with
    | some s => .ok (.option s (c != '-') none)
    | none => classifyDashed word ('-' :: c :: cs)
  | _ => .ok (.plain word)

/-- What the words of a command line are. -/
def classifyAll : List String → Except UsageError (List Word)
  | [] => .ok []
  | word :: rest =>
    if word = "--" then .ok (.divider :: rest.map .plain)
    else
      match classify word, classifyAll rest with
      | .error e, _ => .error e
      | _, .error e => .error e
      | .ok w, .ok ws => .ok (w :: ws)

end Word

/-- What a command line asks for. -/
structure Options where
  paths : List String := []
  noticeFile : Option String := none
  /-- What to name backups with; none if it was taken away. -/
  backupSuffix : Option String := some plainBackupSuffix
  /-- The suffixes of the files to take, those taken away included. -/
  suffixes : List (Option String) := []
  check : Bool := false
  json : Bool := false
  reproducible : Bool := false
  verbose : Bool := false
  quiet : Bool := false
  deriving DecidableEq, Repr

/-- Where the reading of a command line stands with the paths. -/
inductive PathGroup
  | awaited
  | current
  | complete
  deriving DecidableEq, Repr

/-- What has been read of a command line. -/
structure Reading where
  options : Options := {}
  group : PathGroup := .awaited
  /-- Words that have no place. -/
  leftOver : List String := []

namespace Reading

/-- The reading after an option without a value. -/
def apply (r : Reading) : Switch → Except Halt Reading
  | .help => .error .help
  | .version => .error .version
  | .check => .ok { r with options := { r.options with check := true } }
  | .json => .ok { r with options := { r.options with json := true } }
  | .reproducible => .ok { r with options := { r.options with reproducible := true } }
  | .verbose =>
    if r.options.quiet then .error (.usage (.conflict .verbose .quiet))
    else .ok { r with options := { r.options with verbose := true } }
  | .quiet =>
    if r.options.verbose then .error (.usage (.conflict .quiet .verbose))
    else .ok { r with options := { r.options with quiet := true } }
  | .noticeFile | .backupSuffix | .suffix => .ok r

/-- The reading after some options without values. -/
def applyAll : Reading → List Switch → Except Halt Reading
  | r, [] => .ok r
  | r, s :: rest =>
    match r.apply s with
    | .error halt => .error halt
    | .ok r => applyAll r rest

/-- The reading after an option with its value, or with a double dash in place of one. -/
def applyValue (r : Reading) (value : Option String) : Switch → Reading
  | .noticeFile => { r with options := { r.options with noticeFile := value } }
  | .backupSuffix => { r with options := { r.options with backupSuffix := value } }
  | .suffix =>
    { r with options := { r.options with suffixes := r.options.suffixes ++ [value] } }
  | _ => r

/-- The options of a bundle that begins with `s` and goes on with `letters`. -/
def unbundle (s : Switch) : List Char → Except UsageError (List Switch)
  | [] => .ok [s]
  | letter :: rest =>
    match Switch.ofSpelling? (String.ofList ['-', letter]) with
    | none => .error (.unwantedValue s (String.ofList (letter :: rest)))
    | some next => (unbundle next rest).map (s :: ·)

/-- The value that is attached to an option. A double dash is none. -/
def attachedValue (attached : List Char) : Option String :=
  if attached = ['-', '-'] then none else some (String.ofList attached)

/-- The reading after an option with something attached. -/
def applyAttached (r : Reading) (s : Switch) (short : Bool) (attached : List Char) :
    Except Halt Reading :=
  if s.takesValue then .ok (r.applyValue (attachedValue attached) s)
  else if short && !attached.isEmpty then
    match unbundle s attached with
    | .error e => .error (.usage e)
    | .ok switches => r.applyAll switches
  else .error (.usage (.unwantedValue s (String.ofList attached)))

/-- The reading after the paths that have just been read, if an option follows them. -/
def closeGroup (r : Reading) : Reading :=
  if r.group = .current then { r with group := .complete } else r

/-- The reading after a word that is no option. -/
def addPlain (r : Reading) (word : String) : Reading :=
  if r.group = .complete then { r with leftOver := r.leftOver ++ [word] }
  else
    { r with
      group := .current
      options := { r.options with paths := r.options.paths ++ [word] } }

/-- The reading after all words. -/
def readAll : Reading → List Word → Except Halt Reading
  | r, [] => .ok r
  | r, .plain word :: rest => readAll (r.addPlain word) rest
  | r, .divider :: rest =>
    readAll (if r.group = .complete then { r with leftOver := r.leftOver ++ ["--"] } else r) rest
  | r, .unknown word :: rest =>
    readAll { r.closeGroup with leftOver := r.leftOver ++ [word] } rest
  | r, .option s short (some attached) :: rest =>
    match r.closeGroup.applyAttached s short attached with
    | .error halt => .error halt
    | .ok r => readAll r rest
  | r, .option s _ none :: rest =>
    if s.takesValue then
      match rest with
      | .plain value :: rest => readAll (r.closeGroup.applyValue (some value) s) rest
      | _ => .error (.usage (.missingValue s))
    else
      match r.closeGroup.apply s with
      | .error halt => .error halt
      | .ok r => readAll r rest

end Reading

namespace Options

/-- What a command line asks for. -/
def parse (words : List String) : Except Halt Options :=
  match Word.classifyAll words with
  | .error e => .error (.usage e)
  | .ok classified =>
    match Reading.readAll {} classified with
    | .error halt => .error halt
    | .ok r =>
      if r.options.paths.isEmpty then .error (.usage .missingPaths)
      else if r.leftOver.isEmpty then .ok r.options
      else .error (.usage (.unrecognized r.leftOver))

end Options

end Letterhead
