import Letterhead.Datum.Basic

/-!
# Which data are one

A set has no member twice, and a map no key. Numbers and truth values are one when they are worth
the same, a constant is one with its value, and sets are one when they have the same members in
whatever order. The value for no number is one with nothing, not even with itself, and so is
anything made of it. What can be changed is no member and no key.

## Main definitions

* `Datum.identity?` — what a value has in common with just those that it is one with
* `Datum.sameIdentity` — whether two values with given identities are one
-/

namespace Letterhead.Datum

/-- The whole number that a finite whole binary number is. -/
def wholeNumber (negative : Bool) (significand : Nat) (exponent : Int) : Int :=
  let size := significand * powerOfTwo exponent.toNat / powerOfTwo (-exponent).toNat
  if negative then -(size : Int) else size

/-- The identity of a binary number: that of the whole number that it is worth, if there is one. -/
def realIdentity? : Binary64 → Option String
  | .nan => none
  | .infinity negative => some (Json.shownLayout.write (.infinity negative))
  | .finite negative significand exponent =>
    if Binary64.isIntegral (.finite negative significand exponent) then
      some (toString (wholeNumber negative significand exponent))
    else some (Json.shownLayout.write (.finite negative significand exponent))

/-- The identity of a set of members with the given identities. -/
def setIdentity (members : List String) : String :=
  displaySet (members.mergeSort fun first second => first ≤ second)

mutual

/-- The identity of a value: two values are one when both have the same. -/
def identity? : Datum → Option String
  | null => some (display null)
  | bool b => some (if b then "1" else "0")
  | integer n => some (toString n)
  | real x => realIdentity? x
  | text t => some (Quoted.quote t)
  | bytes bs => some (Quoted.quoteBytes bs)
  | path p => some (display (path p))
  | constant _ _ value => identity? value
  | tuple items => (identities? items).map displayTuple
  | fixedSet items => (identities? items).map setIdentity
  | record name fields =>
    (fieldIdentities? fields).map fun parts => name ++ displayTuple parts
  | list _ | set _ | map _ => none

/-- The identities of some values, if each has one. -/
def identities? : List Datum → Option (List String)
  | [] => some []
  | item :: rest => do
    let first ← identity? item
    let others ← identities? rest
    pure (first :: others)

/-- The identities of the fields of a record, if each has one. -/
def fieldIdentities? : List (String × Datum) → Option (List String)
  | [] => some []
  | (_, value) :: rest => do
    let first ← identity? value
    let others ← fieldIdentities? rest
    pure (first :: others)

end

/-- Whether two identities are there and the same. -/
def sameIdentity (first second : Option String) : Bool := first.isSome && first == second

end Letterhead.Datum
