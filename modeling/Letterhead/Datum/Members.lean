import Letterhead.Datum.Identity
import Letterhead.Datum.Mark

/-!
# The members of a set

A set keeps the first of the values that are one. Members with a mark are listed in the order of
their slots. The number of slots is a power of two. A member is put into the first free one of a
walk that starts at its mark, and when three fifths of the slots are taken, all members are put into
a larger set of slots.

## Main definitions

* `Slots`, `Slots.add` — members in their slots, and one more
* `Datum.setOf`, `Datum.fixedSetOf` — the sets of some values
-/

namespace Letterhead

/-- Members with their marks, each in a slot of its own. -/
abbrev Slots := Array (Option (UInt64 × Datum))

namespace Slots

/-- So many free slots. -/
def free (count : Nat) : Slots := Array.replicate count none

/-- The members in the order of their slots. -/
def members (slots : Slots) : List (UInt64 × Datum) := slots.toList.filterMap id

/-- The slots that a walk looks at in one go: one and the nine behind it, or it alone where there
are not so many. -/
def reach (slots : Slots) (slot : Nat) : List Nat :=
  if slot + 9 < slots.size then List.range' slot 10 else [slot]

/-- The first free slot of a walk from a slot on. It goes to five times the slot and one, and while
there is something left of the mark, it goes astray by a part of it. A walk whose mark is used up
comes by every slot. -/
def vacancy (slots : Slots) : Nat → Nat → Nat → Nat
  | 0, _, slot => slot
  | steps + 1, mark, slot =>
    match (slots.reach slot).find? fun place => (slots.getD place none).isNone with
    | some place => place
    | none => vacancy slots steps (mark / 32) ((slot * 5 + 1 + mark / 32) % slots.size)

/-- The slots with a member in the first free one of its walk. The mark is used up after thirteen
steps. -/
def put (slots : Slots) (member : UInt64 × Datum) : Slots :=
  let mark := member.1.toNat
  slots.setIfInBounds (slots.vacancy (slots.size + 13) mark (mark % slots.size)) (some member)

/-- The slots with one more member: there are more of them when three fifths were taken. -/
def add (slots : Slots) (member : UInt64 × Datum) : Slots :=
  let slots := slots.put member
  let count := slots.countP Option.isSome
  if count * 5 < (slots.size - 1) * 3 then slots
  else slots.members.foldl put (free (powerOfTwo ((count * 4).log2 + 1)))

end Slots

namespace Datum

/-- The values that are not one with an earlier one. -/
def distinct (items : List Datum) : List Datum :=
  let identified := items.map fun item => (item.identity?, item)
  (identified.eraseDupsBy fun first second => sameIdentity first.1 second.1).map (·.2)

/-- The members of a set in their order: those with marks by their slots, then those that are one
with nothing, the latest first, and then the others as they came. -/
def arrange (items : List Datum) : List Datum :=
  let marked := items.filterMap fun item => item.mark?.map fun mark => (mark, item)
  let (lone, others) := (items.filter fun item => item.mark?.isNone).partition (·.identity?.isNone)
  ((marked.foldl Slots.add (Slots.free 8)).members.map (·.2)) ++ lone.reverse ++ others

/-- A set of some values. -/
def setOf (items : List Datum) : Datum := set (arrange (distinct items))

/-- A set of some values that cannot change. -/
def fixedSetOf (items : List Datum) : Datum := fixedSet (arrange (distinct items))

end Datum

end Letterhead
