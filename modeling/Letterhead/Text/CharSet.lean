/-!
# Sets of characters

A property of characters is given as a list of closed intervals of code point numbers.

## Main definitions

* `CharSet`, `CharSet.contains` — the sets, and membership in them
-/

namespace Letterhead

/-- A set of characters: the union of closed intervals of code point numbers. -/
abbrev CharSet := List (Nat × Nat)

/-- Whether a character lies in one of the intervals. -/
def CharSet.contains (s : CharSet) (c : Char) : Bool :=
  s.any fun (low, high) => low ≤ c.toNat && c.toNat ≤ high

end Letterhead
