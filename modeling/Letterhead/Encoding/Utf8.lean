/-!
# Reading one character of UTF-8

The first byte of a character says how many bytes follow and in which interval each must lie; the
intervals of the second byte shut out overlong forms, surrogates and numbers beyond U+10FFFF.
A reading fails at the first byte that rules the character out.

## Main definitions

* `Utf8.followers?` — what a first byte announces
* `Utf8.readFirst` — the character at the start of some bytes, or what is wrong there
-/

namespace Letterhead.Utf8

/-- Why no character stands at some place. -/
inductive Flaw
  /-- The first byte starts no character. -/
  | badStart
  /-- A byte after the first cannot stand there. -/
  | badContinuation
  /-- The bytes end inside the character. -/
  | cutShort
  deriving DecidableEq, Repr

/-- The bytes that follow a first byte, each by the interval it must lie in, with the part of the
character's number that the first byte holds. -/
def followers? (lead : Nat) : Option (Nat × List (Nat × Nat)) :=
  if lead < 0x80 then some (lead, [])
  else if lead < 0xC2 then none
  else if lead < 0xE0 then some (lead - 0xC0, [(0x80, 0xBF)])
  else if lead < 0xF0 then
    some (lead - 0xE0,
      [(if lead = 0xE0 then 0xA0 else 0x80, if lead = 0xED then 0x9F else 0xBF), (0x80, 0xBF)])
  else if lead < 0xF5 then
    some (lead - 0xF0,
      [(if lead = 0xF0 then 0x90 else 0x80, if lead = 0xF4 then 0x8F else 0xBF), (0x80, 0xBF),
        (0x80, 0xBF)])
  else none

/-- Read the following bytes into `value`, six bits each. A failure comes with the number of bytes
that were in order before it. -/
def readFollowers (value : Nat) : List (Nat × Nat) → List UInt8 → Except (Flaw × Nat) Nat
  | [], _ => .ok value
  | _ :: _, [] => .error (.cutShort, 0)
  | (low, high) :: intervals, byte :: bytes =>
    if low ≤ byte.toNat ∧ byte.toNat ≤ high then
      match readFollowers (value * 64 + (byte.toNat - 0x80)) intervals bytes with
      | .ok result => .ok result
      | .error (flaw, count) => .error (flaw, count + 1)
    else .error (.badContinuation, 0)

/-- The character that `lead` starts before `rest`, with the number of bytes of `rest` it takes; or
the flaw, with the number of bytes of `rest` that belong to the spoilt character. -/
def readFirst (lead : UInt8) (rest : List UInt8) : Except (Flaw × Nat) (Char × Nat) :=
  match followers? lead.toNat with
  | none => .error (.badStart, 0)
  | some (value, intervals) =>
    match readFollowers value intervals rest with
    | .ok number => .ok (Char.ofNat number, intervals.length)
    | .error flaw => .error flaw

end Letterhead.Utf8
