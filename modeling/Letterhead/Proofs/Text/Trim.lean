import Mathlib.Data.List.DropRight
import Letterhead.Proofs.Text.Affix

/-!
# What trimming leaves

Trimming takes elements off both ends of a list as long as a property holds of them. Three facts
tell what it leaves: the property holds of all that stands outside, and it holds neither of the
first nor of the last element that is left. A line is trimmed of its outer blanks in this way, and
the text of a notice of its outer blank lines.

## Main definitions

* `IsCore` — what is left of a list without its outer elements

## Main results

* `trimEnd_dropWhile_eq_iff` — trimming leaves the core, and a list has no other
* `Text.trim_eq_iff`, `Text.isSuffix_trimRight_iff` — lines that are trimmed to a given text, or to
  one that ends in it
-/

namespace Letterhead

section Core

variable {α : Type} {p : α → Bool} {xs core after : List α}

/-- What is left of a list without the elements at both ends that `p` holds of. -/
structure IsCore (p : α → Bool) (xs core : List α) : Prop where
  exists_outer : ∃ before after, xs = before ++ (core ++ after) ∧
    (∀ x ∈ before, p x) ∧ ∀ x ∈ after, p x
  head_not : ∀ x ∈ core.head?, p x = false
  last_not : ∀ x ∈ core.getLast?, p x = false

theorem isCore_nil_iff : IsCore p xs [] ↔ ∀ x ∈ xs, p x := by
  constructor
  · rintro ⟨⟨before, after, rfl, hbefore, hafter⟩, -, -⟩
    exact List.forall_mem_append.mpr ⟨hbefore, hafter⟩
  · intro h
    exact ⟨⟨xs, [], by simp, h, by simp⟩, by simp, by simp⟩

theorem trimEnd_concat (p : α → Bool) (xs : List α) (x : α) :
    trimEnd p (xs ++ [x]) = if p x then trimEnd p xs else xs ++ [x] := by
  induction xs with
  | nil => rfl
  | cons y ys ih =>
    rw [List.cons_append, trimEnd, ih]
    by_cases hx : p x
    · rw [if_pos hx, if_pos hx, trimEnd]
    · rw [if_neg hx, if_neg hx]
      cases ys <;> rfl

theorem trimEnd_eq_rdropWhile (p : α → Bool) (xs : List α) : trimEnd p xs = xs.rdropWhile p := by
  induction xs using List.reverseRecOn with
  | nil => rfl
  | append_singleton xs x ih => rw [trimEnd_concat, List.rdropWhile_concat, ih]

theorem trimEnd_append_of_forall (h : ∀ x ∈ after, p x) (xs : List α) :
    trimEnd p (xs ++ after) = trimEnd p xs := by
  induction after using List.reverseRecOn with
  | nil => rw [List.append_nil]
  | append_singleton after x ih =>
    rw [← List.append_assoc, trimEnd_concat, if_pos (h x (by simp))]
    exact ih fun y hy => h y (List.mem_append_left _ hy)

theorem trimEnd_eq_self (h : ∀ x ∈ xs.getLast?, p x = false) : trimEnd p xs = xs := by
  rw [trimEnd_eq_rdropWhile, List.rdropWhile_eq_self_iff]
  intro hne
  simp [h _ (List.getLast_mem_getLast? hne)]

/-- Behind what trimming leaves there are elements that `p` holds of, and nothing else. -/
theorem exists_trimEnd_append (p : α → Bool) (xs : List α) :
    ∃ after, xs = trimEnd p xs ++ after ∧ ∀ x ∈ after, p x := by
  refine ⟨xs.rtakeWhile p, ?_, fun x hx => List.mem_rtakeWhile_imp hx⟩
  rw [trimEnd_eq_rdropWhile, List.rdropWhile_append_rtakeWhile]

/-- Trimming leaves the core. -/
theorem isCore_trimEnd_dropWhile (p : α → Bool) (xs : List α) :
    IsCore p xs (trimEnd p (xs.dropWhile p)) := by
  obtain ⟨after, hxs, hafter⟩ := exists_trimEnd_append p (xs.dropWhile p)
  refine ⟨⟨xs.takeWhile p, after, ?_, fun x hx => List.mem_takeWhile_imp hx, hafter⟩, ?_, ?_⟩
  · rw [← hxs, List.takeWhile_append_dropWhile]
  · -- What is left begins like the list without its first elements.
    intro x hx
    have hhead := List.head?_dropWhile_not p xs
    rw [hxs, List.head?_append, Option.mem_def.mp hx] at hhead
    exact hhead
  · intro x hx
    rw [trimEnd_eq_rdropWhile] at hx
    obtain ⟨hne, rfl⟩ := List.mem_getLast?_eq_getLast hx
    simpa using List.rdropWhile_last_not p _ hne

theorem IsCore.eq (h : IsCore p xs core) : trimEnd p (xs.dropWhile p) = core := by
  obtain ⟨⟨before, after, rfl, hbefore, hafter⟩, hhead, hlast⟩ := h
  rw [List.dropWhile_append_of_pos hbefore]
  cases core with
  | nil => rw [List.nil_append, List.dropWhile_eq_nil_iff.mpr hafter]; rfl
  | cons x core =>
    have hx : p x = false := hhead x rfl
    rw [List.cons_append, List.dropWhile_cons_of_neg (by simp [hx]), ← List.cons_append,
      trimEnd_append_of_forall hafter, trimEnd_eq_self hlast]

/-- A list has the same core with more behind it that `p` holds of. -/
theorem IsCore.append (h : IsCore p xs core) {more : List α} (hmore : ∀ x ∈ more, p x) :
    IsCore p (xs ++ more) core := by
  obtain ⟨⟨before, after, rfl, hbefore, hafter⟩, hhead, hlast⟩ := h
  refine ⟨⟨before, after ++ more, by simp, hbefore, ?_⟩, hhead, hlast⟩
  exact List.forall_mem_append.mpr ⟨hafter, hmore⟩

/-- Trimming leaves the core, and a list has no other. -/
theorem trimEnd_dropWhile_eq_iff : trimEnd p (xs.dropWhile p) = core ↔ IsCore p xs core := by
  constructor
  · rintro rfl
    exact isCore_trimEnd_dropWhile p xs
  · exact IsCore.eq

end Core

namespace Text

variable {t s : Text}

theorem isBlank_iff : t.isBlank ↔ ∀ p ∈ t, p.isBlank := List.all_eq_true

/-- A line is trimmed to a text without outer blanks if there are just blanks around that. -/
theorem trim_eq_iff (hhead : ∀ p ∈ s.head?, p.isBlank = false)
    (hlast : ∀ p ∈ s.getLast?, p.isBlank = false) :
    t.trim = s ↔ ∃ before after, t = before ++ (s ++ after) ∧ before.isBlank ∧ after.isBlank := by
  simp only [isBlank_iff]
  constructor
  · intro h
    exact (trimEnd_dropWhile_eq_iff.mp h).exists_outer
  · intro h
    exact trimEnd_dropWhile_eq_iff.mpr ⟨h, hhead, hlast⟩

/-- A line without its last blanks ends in a text that ends in none if there are just blanks behind
that text. -/
theorem isSuffix_trimRight_iff (hne : s ≠ []) (hlast : ∀ p ∈ s.getLast?, p.isBlank = false) :
    s <:+ t.trimRight ↔ ∃ before after, t = before ++ (s ++ after) ∧ after.isBlank := by
  simp only [isBlank_iff]
  constructor
  · rintro ⟨before, hbefore⟩
    obtain ⟨after, ht, hafter⟩ := exists_trimEnd_append CodePoint.isBlank t
    refine ⟨before, after, ?_, hafter⟩
    rw [← List.append_assoc, hbefore]
    exact ht
  · rintro ⟨before, after, rfl, hafter⟩
    have hend : ∀ p ∈ (before ++ s).getLast?, p.isBlank = false := by
      rwa [List.getLast?_append_of_ne_nil _ hne]
    rw [trimRight, ← List.append_assoc, trimEnd_append_of_forall hafter, trimEnd_eq_self hend]
    exact List.suffix_append before s

end Text

end Letterhead
