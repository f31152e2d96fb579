import Letterhead.Text.CaseTable

/-!
# Lower case

The full lower-case mapping of Unicode. One character, the dotted capital I, becomes two; and a
capital sigma becomes a final sigma at the end of a word: after a letter with case and not before
one, case-ignorable characters in between not counting. All else goes character by character.

## Main definitions

* `lowerChar` — the simple mapping
* `lowercase` — the mapping of a whole word, sigma included
-/

namespace Letterhead

/-- The single lower-case character of `c`, which is `c` itself where there is none. -/
def lowerChar (c : Char) : Char :=
  match caseRuns.find? (·.covers c.toNat) with
  | some run => Char.ofNat (c.toNat + run.distance).toNat
  | none => c

/-- Whether the first character of `cs` that is not case-ignorable has case. -/
def metCased (cs : List Char) : Bool :=
  match cs.dropWhile caseIgnorableChars.contains with
  | [] => false
  | c :: _ => casedChars.contains c

/-- The lower case of `cs`, when `before` holds the characters before it, last one first. -/
def lowercaseFrom (before : List Char) : List Char → List Char
  | [] => []
  | c :: rest =>
    let lowered :=
      if c = 'Σ' then (if metCased before && !metCased rest then ['ς'] else ['σ'])
      else if c = 'İ' then ['i', Char.ofNat 0x307]
      else [lowerChar c]
    lowered ++ lowercaseFrom (c :: before) rest

/-- A string in lower case. -/
def lowercase (s : String) : String := String.ofList (lowercaseFrom [] s.toList)

end Letterhead
