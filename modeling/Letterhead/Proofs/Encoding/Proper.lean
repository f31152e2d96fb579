import Letterhead.Encoding.Encode

/-!
# Texts without surrogates

A text can be put out in UTF-8 if it holds no surrogate. In particular no stray byte can be put out,
unless it is written back to the file that it came from.

## Main definitions

* `Text.isProper` — the texts without surrogates

## Main results

* `Text.isSome_toString?`, `Text.ofString_of_toString?` — they are the texts that are strings
* `Charset.exists_encodeStrict_utf8_iff` — they are the texts that UTF-8 has bytes for
-/

namespace Letterhead

/-- Whether a code point is a Unicode scalar value. -/
def CodePoint.isScalar : CodePoint → Bool
  | scalar _ => true
  | surrogate _ => false

namespace Text

/-- Whether a text holds no surrogate. -/
def isProper (t : Text) : Bool := t.all CodePoint.isScalar

@[simp] theorem isProper_nil : isProper [] = true := rfl

@[simp] theorem isProper_cons (p : CodePoint) (t : Text) :
    isProper (p :: t) = (p.isScalar && isProper t) := List.all_cons

@[simp] theorem isProper_append (t t' : Text) : isProper (t ++ t') = (isProper t && isProper t') :=
  List.all_append

@[simp] theorem isProper_flatMap {α : Type} (f : α → Text) (as : List α) :
    isProper (as.flatMap f) = as.all fun a => isProper (f a) := List.all_flatMap

@[simp] theorem isProper_map_scalar (cs : List Char) : isProper (cs.map .scalar) = true := by
  simp [isProper, CodePoint.isScalar]

@[simp] theorem isProper_ofString (s : String) : isProper (ofString s) = true :=
  isProper_map_scalar s.toList

theorem isSome_toString? (t : Text) : t.toString?.isSome = t.isProper := by
  rw [toString?, Option.isSome_map]
  induction t with
  | nil => rfl
  | cons p t ih =>
    cases p with
    | scalar c => rw [scalars?, Option.isSome_map, ih]; rfl
    | surrogate offset => rfl

theorem ofString_of_toString? {t : Text} {s : String} (h : t.toString? = some s) :
    ofString s = t := by
  have hscalars : ∀ {t : Text} {cs : List Char}, t.scalars? = some cs → cs.map .scalar = t := by
    intro t
    induction t with
    | nil => rintro cs ⟨⟩; rfl
    | cons p t ih =>
      intro cs h
      cases p with
      | scalar c =>
        obtain ⟨rest, hrest, rfl⟩ := Option.map_eq_some_iff.mp h
        rw [List.map_cons, ih hrest]
      | surrogate offset => cases h
  obtain ⟨cs, hcs, rfl⟩ := Option.map_eq_some_iff.mp h
  rw [ofString, String.toList_ofList, hscalars hcs]

end Text

/-- Strictly, UTF-8 has bytes for the texts without surrogates and for no others. -/
theorem Charset.exists_encodeStrict_utf8_iff {t : Text} :
    (∃ bytes, utf8.encodeStrict t = .ok bytes) ↔ t.isProper = true := by
  have h : ∀ position, (∃ bytes, utf8.encodeWith utf8.bytesOf? position t = .ok bytes) ↔
      t.isProper = true := by
    induction t with
    | nil => exact fun position => ⟨fun _ => rfl, fun _ => ⟨[], rfl⟩⟩
    | cons p t ih =>
      intro position
      cases p with
      | surrogate offset => simp [encodeWith, bytesOf?, CodePoint.isScalar]
      | scalar c =>
        rw [Text.isProper_cons, CodePoint.isScalar, Bool.true_and, ← ih (position + 1), encodeWith,
          bytesOf?]
        cases utf8.encodeWith utf8.bytesOf? (position + 1) t <;> simp
  rw [← h 0, encodeStrict]
  cases utf8.encodeWith utf8.bytesOf? 0 t <;> simp

end Letterhead
