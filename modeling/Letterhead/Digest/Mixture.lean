/-!
# Mixtures of words

A word of 64 bits that stands for several: for a sequence of words, where their order counts, and
for a collection, where it does not. Words are multiplied by large primes and turned, so that every
bit of each touches all bits of the mixture. All arithmetic wraps. The word with all bits set is no
mixture.

## Main definitions

* `Mixture.ofSequence` — the mixture of a sequence
* `Mixture.ofCollection` — the mixture of a collection
-/

namespace Letterhead.Mixture

/-- A word turned to the left. -/
def turn (x count : UInt64) : UInt64 := (x <<< count) ||| (x >>> (64 - count))

/-- A word, or another one for that with all bits set. -/
def unlessFull (other x : UInt64) : UInt64 := if x = 0xffffffffffffffff then other else x

/-- The prime that a mixture of a sequence starts from. -/
def seed : UInt64 := 2870177450012600261

/-- A word mixed into what comes before it in a sequence. -/
def absorb (mixed word : UInt64) : UInt64 :=
  turn (mixed + word * 14029467366897019727) 31 * 11400714785074694791

/-- The mixture of a sequence. -/
def ofSequence (words : List UInt64) : UInt64 :=
  let length := UInt64.ofNat words.length
  unlessFull 1546275796 (words.foldl absorb seed + (length ^^^ seed ^^^ (3527539 : UInt64)))

/-- A word with its bits spread. -/
def spread (word : UInt64) : UInt64 := (word ^^^ (89869747 : UInt64) ^^^ (word <<< 16)) * 3644798167

/-- The mixture of a collection, the words of which may come in any order. -/
def ofCollection (words : List UInt64) : UInt64 :=
  let size := UInt64.ofNat words.length
  let mixed := words.foldl (fun mixed word => mixed ^^^ spread word) ((size + 1) * 1927868237)
  let mixed := mixed ^^^ (mixed >>> 11) ^^^ (mixed >>> 25)
  unlessFull 590923713 (mixed * 69069 + 907133923)

end Letterhead.Mixture
