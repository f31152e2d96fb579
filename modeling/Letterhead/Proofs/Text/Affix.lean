import Mathlib.Data.List.TakeWhile
import Letterhead.Text.Blank

/-!
# What stands at the ends of a text

A prefix test that gives back the rest, and what is left of a text without its outer blanks.
-/

namespace Letterhead

theorem isPrefixOf?_eq_some_iff {α : Type} [BEq α] [LawfulBEq α] {xs ys rest : List α} :
    xs.isPrefixOf? ys = some rest ↔ ys = xs ++ rest := by
  induction xs generalizing ys with
  | nil => exact Option.some_inj
  | cons x xs ih =>
    cases ys with
    | nil => exact iff_of_false nofun nofun
    | cons y ys =>
      change (if x == y then xs.isPrefixOf? ys else none) = some rest ↔ _
      by_cases hxy : x = y
      · subst hxy
        rw [if_pos (BEq.refl x), ih, List.cons_append, List.cons_inj_right]
      · rw [if_neg (by simpa using hxy)]
        exact iff_of_false nofun fun heq => hxy (List.cons.inj heq).1.symm

theorem trimEnd_cons_of_not {α : Type} {p : α → Bool} {x : α} (h : p x = false) (xs : List α) :
    trimEnd p (x :: xs) = x :: trimEnd p xs := by
  cases hxs : trimEnd p xs <;> simp [trimEnd, hxs, h]

theorem isPrefix_trimEnd {α : Type} (p : α → Bool) (xs : List α) : trimEnd p xs <+: xs := by
  induction xs with
  | nil => exact List.prefix_rfl
  | cons y ys ih =>
    rw [trimEnd]
    split
    · split
      · exact List.nil_prefix
      · exact ⟨ys, rfl⟩
    · exact List.cons_prefix_cons.mpr ⟨rfl, ih⟩

theorem mem_of_mem_trimEnd {α : Type} {p : α → Bool} {x : α} {xs : List α}
    (h : x ∈ trimEnd p xs) : x ∈ xs :=
  (isPrefix_trimEnd p xs).subset h

namespace Text

theorem trim_of_isBlank {t : Text} (h : t.isBlank) : t.trim = [] := by
  have left : t.trimLeft = [] := List.dropWhile_eq_nil_iff.mpr (List.all_eq_true.mp h)
  rw [trim, left]
  rfl

theorem trim_cons_of_not {p : CodePoint} (h : p.isBlank = false) (t : Text) :
    trim (p :: t) = p :: t.trimRight := by
  rw [trim, trimLeft, List.dropWhile_cons_of_neg (by simp [h])]
  exact trimEnd_cons_of_not h t

end Text

end Letterhead
