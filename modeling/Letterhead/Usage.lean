import Letterhead.Options

/-!
# What the tool says about itself

The usage, the help and the version, as they are printed, and the complaint about a command line
that makes no sense.

## Main definitions

* `usageText`, `helpText`, `versionText` — what the tool says about itself
* `Halt.exitStatus`, `Halt.output`, `Halt.complaint` — how a command ends that has nothing to do
-/

namespace Letterhead

/-- Lines one after the other, each ended by a line feed. -/
def printedLines (lines : List String) : String := String.join (lines.map (· ++ "\n"))

/-- How to call the tool. -/
def usageText : String :=
  printedLines
    ["usage: copyright-header [-h] [--copyright-file COPYRIGHT_FILE]",
      "                        [--backup-suffix BACKUP_SUFFIX] [--ext EXT] [--check]",
      "                        [--json] [--ci] [-v | -q] [--version]",
      "                        PATH [PATH ...]"]

/-- What the tool does, and what its options mean. -/
def helpText : String :=
  usageText ++ printedLines
    ["",
      "Replace or insert the leading copyright comment of source files.",
      "",
      "positional arguments:",
      "  PATH                  Files to update; directories are searched recursively.",
      "",
      "options:",
      "  -h, --help            show this help message and exit",
      "  --copyright-file COPYRIGHT_FILE",
      "                        File holding the canonical header (default:",
      "                        $COPYRIGHT_HEADER_FILE or ./COPYRIGHT).",
      "  --backup-suffix BACKUP_SUFFIX",
      "                        Suffix of the temporary backup kept while a file is",
      "                        rewritten.",
      "  --ext EXT             File extension to pick up inside directories",
      "                        (repeatable).",
      "  --check               Report files whose header would change; write nothing.",
      "  --json                Print the update report JSON to stdout.",
      "  --ci, --deterministic",
      "                        Enable deterministic report output (stable run ID and",
      "                        timestamp).",
      "  -v, --verbose",
      "  -q, --quiet",
      "  --version             show program's version number and exit"]

/-- Which version of the tool this is. -/
def versionText : String := printedLines [toolName ++ " " ++ version]

namespace Halt

/-- The exit status of a command for which nothing is to be done. -/
def exitStatus : Halt → Nat
  | help | version => 0
  | usage _ => 2

/-- What such a command puts out. -/
def output : Halt → String
  | help => helpText
  | version => versionText
  | usage _ => ""

/-- What such a command complains of. -/
def complaint : Halt → String
  | help | version => ""
  | usage error => usageText ++ printedLines [toolName ++ ": error: " ++ error.message]

end Halt

end Letterhead
