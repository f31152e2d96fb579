import Letterhead.Datum.Basic
import Letterhead.Digest.Mixture

/-!
# Marks

The mark of a value is a word of 64 bits that tells where in a set the value stands. The mark of a
number is what is left of it modulo 2^61 - 1, so numbers that are worth the same have one mark.
Texts with anything in them, and what is made of them, have no mark.

## Main definitions

* `Datum.mark?` — the mark of a value
-/

namespace Letterhead.Datum

/-- The number that marks are taken modulo. -/
def markModulus : Nat := powerOfTwo 61 - 1

/-- The mark of a number of a size, or of its negative. The word with all bits set is no mark. -/
def numberMark (negative : Bool) (size : Nat) : UInt64 :=
  let mark := UInt64.ofNat (size % markModulus)
  if negative then 0 - (if mark = 1 then 2 else mark) else mark

/-- The mark of a binary number. A power of two is worth the same as one whose exponent is less by
61, modulo 2^61 - 1. -/
def realMark? : Binary64 → Option UInt64
  | .nan => none
  | .infinity negative => some (numberMark negative 314159)
  | .finite negative significand exponent =>
    some (numberMark negative (significand * powerOfTwo (exponent % 61).toNat))

mutual

/-- The mark of a value. -/
def mark? : Datum → Option UInt64
  | bool b => some (if b then 1 else 0)
  | integer n => some (numberMark (n < 0) n.natAbs)
  | real x => realMark? x
  | text [] | bytes [] => some 0
  | constant _ _ value => mark? value
  | tuple items => (marks? items).map Mixture.ofSequence
  | fixedSet items => (marks? items).map Mixture.ofCollection
  | _ => none

/-- The marks of some values, if each has one. -/
def marks? : List Datum → Option (List UInt64)
  | [] => some []
  | item :: rest => do
    let first ← mark? item
    let others ← marks? rest
    pure (first :: others)

end

end Letterhead.Datum
