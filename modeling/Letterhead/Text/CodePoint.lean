/-!
# Text that may hold stray bytes

A source file is text only as far as its bytes make sense in its charset. A byte that makes no
sense is kept in place, as a lone surrogate, and written back unchanged. So a line of a file is
a list of code points, each a Unicode scalar value or a lone surrogate.

## Main definitions

* `CodePoint`, `Text` — a code point, and a list of them
* `CodePoint.stray`, `CodePoint.strayByte?` — the surrogate that stands for a byte, and back
* `Text.ofString`, `Text.toString?` — proper strings inside the texts
-/

namespace Letterhead

/-- A Unicode scalar value or a lone surrogate, the latter given by its distance from U+D800. -/
inductive CodePoint
  | scalar (c : Char)
  | surrogate (offset : Fin 0x800)
  deriving DecidableEq, Repr, Inhabited

/-- A sequence of code points. -/
abbrev Text := List CodePoint

namespace CodePoint

/-- The number of a code point, from 0 to 0x10FFFF. -/
def value : CodePoint → Nat
  | scalar c => c.toNat
  | surrogate offset => 0xD800 + offset.val

/-- The code point of a number, if it is small enough to be one. -/
def ofNat? (n : Nat) : Option CodePoint :=
  if h : n < 0xD800 then some (scalar (Char.ofNat n))
  else if h : n < 0xE000 then some (surrogate ⟨n - 0xD800, by omega⟩)
  else if n < 0x110000 then some (scalar (Char.ofNat n))
  else none

/-- The surrogate that stands for a byte with no meaning in its charset: U+DC00 plus the byte. -/
def stray (byte : UInt8) : CodePoint :=
  surrogate ⟨0x400 + byte.toNat, by have := byte.toNat_lt; omega⟩

/-- The byte a code point stands for: U+DC80 to U+DCFF stand for 0x80 to 0xFF, no other for any. -/
def strayByte? : CodePoint → Option UInt8
  | surrogate offset =>
    if 0x480 ≤ offset.val ∧ offset.val < 0x500 then some (UInt8.ofNat (offset.val - 0x400))
    else none
  | scalar _ => none

/-- Code points are ordered by number. -/
instance : Ord CodePoint := ⟨fun a b => compare a.value b.value⟩

@[simp] theorem value_scalar (c : Char) : (scalar c).value = c.toNat := rfl

@[simp] theorem value_surrogate (offset : Fin 0x800) :
    (surrogate offset).value = 0xD800 + offset.val := rfl

theorem ofNat?_value (p : CodePoint) : ofNat? p.value = some p := by
  cases p with
  | scalar c =>
    have hvalid : c.toNat < 0xD800 ∨ 0xDFFF < c.toNat ∧ c.toNat < 0x110000 := c.valid
    rw [value_scalar, ofNat?]
    by_cases hlow : c.toNat < 0xD800
    · rw [dif_pos hlow, Char.ofNat_toNat]
    · rw [dif_neg hlow, dif_neg (by omega), if_pos (by omega), Char.ofNat_toNat]
  | surrogate offset =>
    rw [value_surrogate, ofNat?, dif_neg (by omega), dif_pos (by omega)]
    simp

theorem value_injective : Function.Injective value := by
  intro p q h
  have hpq : ofNat? p.value = ofNat? q.value := by rw [h]
  rwa [ofNat?_value, ofNat?_value, Option.some.injEq] at hpq

instance : Std.TransOrd CodePoint := inferInstanceAs (Std.TransCmp (compareOn value))

instance : Std.LawfulEqOrd CodePoint where
  eq_of_compare h := value_injective (Std.compare_eq_iff_eq.mp h)

@[simp] theorem strayByte?_scalar (c : Char) : (scalar c).strayByte? = none := rfl

theorem strayByte?_stray {byte : UInt8} (h : 0x80 ≤ byte.toNat) :
    (stray byte).strayByte? = some byte := by
  have := byte.toNat_lt
  simp only [stray, strayByte?]
  rw [if_pos (by omega)]
  simp

end CodePoint

namespace Text

/-- A proper string as a text. -/
def ofString (s : String) : Text := s.toList.map .scalar

instance : Coe String Text := ⟨ofString⟩

/-- The characters of a text without surrogates. -/
def scalars? : Text → Option (List Char)
  | [] => some []
  | .scalar c :: rest => (scalars? rest).map (c :: ·)
  | .surrogate _ :: _ => none

/-- The string a text is, if it holds no surrogate. -/
def toString? (t : Text) : Option String := t.scalars?.map String.ofList

/-- The line feed. -/
def lineFeed : CodePoint := .scalar '\n'

@[simp] theorem scalars?_map_scalar (cs : List Char) :
    scalars? (cs.map CodePoint.scalar) = some cs := by
  induction cs with
  | nil => rfl
  | cons c cs ih => simp [scalars?, ih]

@[simp] theorem toString?_ofString (s : String) : (ofString s).toString? = some s := by
  simp [toString?, ofString]

theorem ofString_injective : Function.Injective ofString := by
  intro s s' h
  have hs : (ofString s).toString? = (ofString s').toString? := by rw [h]
  rwa [toString?_ofString, toString?_ofString, Option.some.injEq] at hs

end Text

end Letterhead
