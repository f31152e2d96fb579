import Letterhead.Proofs.FileSystem.Spelling

/-!
# Long ways round

A path may go into a directory and back as often as one likes, and denotes the same file still. The
way makes the path longer, until it is too long for the system.

## Main definitions

* `roundabout` — a file in the working directory, by a long way round

## Main results

* `utf8ByteSize_roundabout`, `utf8ByteSize_absolute_roundabout` — how long such a path is
* `walk_detour` — a long way round leads back to where it begins
* `alike_roundabout` — how long the way is does not matter otherwise
-/

namespace Letterhead

variable {fs : FileSystem} {times : Nat} {name suffix : String}

/-- The names of a way into a directory and back, so many times. -/
def detour : Nat → List String
  | 0 => []
  | times + 1 => "d" :: ".." :: detour times

/-- A file in the working directory, by a long way round. -/
def roundabout (times : Nat) (name : String) : Path := ⟨.relative, detour times ++ [name]⟩

theorem eq_of_mem_detour (h : name ∈ detour times) : name = "d" ∨ name = ".." := by
  induction times with
  | zero => cases h
  | succ times ih =>
    rcases List.mem_cons.mp h with rfl | h
    · exact Or.inl rfl
    rcases List.mem_cons.mp h with rfl | h
    · exact Or.inr rfl
    · exact ih h

theorem utf8ByteSize_detour (name : String) (times : Nat) :
    (String.intercalate "/" (detour times ++ [name])).utf8ByteSize =
      5 * times + name.utf8ByteSize := by
  induction times with
  | zero => simp [detour]
  | succ times ih =>
    have hround : (String.intercalate "/" ["d", ".."]).utf8ByteSize = 4 := by decide
    have hslash : "/".utf8ByteSize = 1 := by decide
    have hway : detour (times + 1) ++ [name] = ["d", ".."] ++ (detour times ++ [name]) := rfl
    rw [hway, String.intercalate_append_of_ne_nil (by simp) (by simp), String.utf8ByteSize_append,
      String.utf8ByteSize_append, hround, hslash, ih]
    omega

theorem utf8ByteSize_roundabout (times : Nat) (name : String) :
    (roundabout times name).toString.utf8ByteSize = 5 * times + name.utf8ByteSize := by
  rw [Path.toString, if_neg (by simp [roundabout]), String.utf8ByteSize_append, roundabout,
    utf8ByteSize_detour]
  exact Nat.zero_add _

theorem utf8ByteSize_absolute_roundabout (times : Nat) (name : String) :
    ((roundabout times name).absolute ["work"]).toString.utf8ByteSize =
      6 + (5 * times + name.utf8ByteSize) := by
  have hhome : (Anchor.root.text ++ "work" ++ "/").utf8ByteSize = 6 := by decide
  rw [Path.absolute_of_relative rfl, Path.toString, if_neg (by simp), roundabout,
    String.intercalate_append_of_ne_nil (by simp) (by simp), String.intercalate_singleton,
    ← String.append_assoc, ← String.append_assoc, String.utf8ByteSize_append, hhome,
    utf8ByteSize_detour]

theorem eq_of_mem_roundabout {step : String} (h : step ∈ (roundabout times name).names) :
    step = "d" ∨ step = ".." ∨ step = name := by
  rcases List.mem_append.mp h with h | h
  · exact (eq_of_mem_detour h).imp_right Or.inl
  · exact Or.inr (Or.inr (List.mem_singleton.mp h))

theorem proper_roundabout (times : Nat) (hempty : name ≠ "") (hdot : name ≠ ".")
    (hslash : '/' ∉ name.toList) :
    (roundabout times name).Proper := by
  intro step hstep
  rcases eq_of_mem_roundabout hstep with rfl | rfl | rfl
  · decide
  · decide
  · exact ⟨hempty, hdot, hslash⟩

theorem backup_roundabout_eq_ok_iff {backup : Path} :
    (roundabout times name).backup suffix = .ok backup ↔
      name ≠ "" ∧ Path.isSingleName (name ++ suffix) = true ∧
        backup = roundabout times (name ++ suffix) := by
  have hname : (roundabout times name).name = name := by
    rw [Path.name, roundabout, List.getLast?_concat]
    rfl
  have hfront : (roundabout times name).names.dropLast = detour times := List.dropLast_concat
  rw [Path.backup_eq_ok_iff, hname, hfront]
  rfl

/-- A long way round leads back to where it begins. -/
theorem walk_detour {aim : FileSystem.Aim} (haim : aim ≠ .file)
    (expand : Location → List String → Except Problem Location) {here : Location}
    (hhere : fs.has Node.isSearchable here) (hway : fs.has Node.isSearchable (here ++ ["d"]))
    (rest : List String) (times : Nat) :
    fs.walk aim expand here (detour times ++ rest) = fs.walk aim expand here rest := by
  have hname : FileSystem.IsName "d" := ⟨by decide, by decide, by decide, by decide⟩
  induction times with
  | zero => rfl
  | succ times ih =>
    have hdir := FileSystem.has_mono Node.isDirectory_of_isSearchable hway
    rw [detour, List.cons_append, List.cons_append,
      FileSystem.walk_directory haim expand hhere hname (by decide) hdir,
      FileSystem.walk_up hway, List.dropLast_concat, ih]

theorem steps_roundabout (hname : '/' ∉ name.toList) :
    (roundabout times name).steps = detour times ++ [name] := by
  rw [Path.steps_of_names (by simp [roundabout])]
  refine FileSystem.flatMap_slashPieces fun step hstep => ?_
  rcases List.mem_append.mp hstep with hstep | hstep
  · rcases eq_of_mem_detour hstep with rfl | rfl <;> decide
  · rwa [List.mem_singleton.mp hstep]

theorem hasNul_roundabout : (roundabout times name).hasNul = name.toList.contains '\x00' := by
  have hdetour : (detour times).any (·.toList.contains '\x00') = false := by
    rw [List.any_eq_false]
    intro step hstep
    rcases eq_of_mem_detour hstep with rfl | rfl <;> decide
  rw [Path.hasNul, roundabout, List.any_append, hdetour, Bool.false_or, List.any_cons, List.any_nil,
    Bool.or_false]

/-- How long the way round is does not matter, as long as the path is not too long. -/
theorem alike_roundabout (times times' : Nat)
    (hhome : fs.has Node.isSearchable fs.workingDirectory)
    (hway : fs.has Node.isSearchable (fs.workingDirectory ++ ["d"]))
    (hname : '/' ∉ name.toList) (hshort : 5 * times + name.utf8ByteSize < FileSystem.pathLimit)
    (hshort' : 5 * times' + name.utf8ByteSize < FileSystem.pathLimit) :
    fs.Alike (roundabout times name) (roundabout times' name) where
  hasNul := by rw [hasNul_roundabout, hasNul_roundabout]
  endsInDots := by
    rw [Path.endsInDots, Path.endsInDots, steps_roundabout hname, steps_roundabout hname,
      List.getLast?_append, List.getLast?_append]
    rfl
  locate aim haim := by
    rw [FileSystem.locate_relative rfl (by rwa [utf8ByteSize_roundabout]), steps_roundabout hname,
      FileSystem.locate_relative rfl (by rwa [utf8ByteSize_roundabout]), steps_roundabout hname,
      walk_detour haim _ hhome hway, walk_detour haim _ hhome hway]

end Letterhead
