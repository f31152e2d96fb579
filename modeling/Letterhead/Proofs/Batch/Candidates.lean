import Mathlib.Data.List.Perm.Basic
import Letterhead.Proofs.Batch.Completion
import Letterhead.Proofs.FileSystem.Spelling

/-!
# The order of the given paths

Every given path stands for some paths, and the targets are these paths, each once. A path that is
given in two spellings is taken in the one that comes first. So the order of the given paths decides
how a target is spelt and when it is visited, but not which paths are targets, as seen from the
root.

## Main definitions

* `candidatesOf` — the paths that a given path stands for
* `Target.key` — the path of a target from the root on
* `FileSystem.Found` — a target that a search has found

## Main results

* `candidatesOf_cases` — what a given path can stand for
* `plan_eq_planCandidates` — the targets are the paths that the given ones stand for, each once
* `perm_key_plan` — the targets, as seen from the root, do not depend on the order of the paths
* `FileSystem.Found.alike` — targets that are the same from the root on are looked up alike
-/

namespace Letterhead

variable {config : Config} {fs : FileSystem} {path : Path} {paths paths' seen : List Path}
  {t : Target}

/-! ### Targets and the paths they come from -/

/-- The paths that a given path stands for, as far as it can be searched. -/
def candidatesOf (config : Config) (fs : FileSystem) (path : Path) : List Path :=
  if hasIgnoredPart config.ignoredNames path then []
  else
    match fs.isDirectory path, entriesBelowPath fs path with
    | .ok false, _ => [path]
    | .ok true, .ok entries => (entries.map path.below).filter (admittedBelow config path fs)
    | _, _ => []

theorem admittedBelow_below (config : Config) (root : Path) (fs : FileSystem)
    (names : List String) :
    admittedBelow config root fs (root.below names) = config.admits root fs names := by
  simp [admittedBelow, Path.below]

theorem planCandidates_filter (fs : FileSystem) (admitted : Path → Bool) (candidates : List Path) :
    ∀ seen, planCandidates fs admitted seen candidates =
      planCandidates fs (fun _ => true) seen (candidates.filter admitted) := by
  induction candidates with
  | nil => exact fun seen => rfl
  | cons path rest ih =>
    intro seen
    rw [planCandidates]
    cases hadmitted : admitted path with
    | false =>
      rw [List.filter_cons_of_neg (by simp [hadmitted]), Bool.false_and,
        if_neg Bool.false_ne_true]
      exact ih seen
    | true =>
      rw [List.filter_cons_of_pos hadmitted, planCandidates, ih, ih]

theorem planCandidates_append (fs : FileSystem) (admitted : Path → Bool) (more : List Path)
    (candidates : List Path) :
    ∀ seen, planCandidates fs admitted seen (candidates ++ more) =
      let (found, seen) := planCandidates fs admitted seen candidates
      let (later, seen) := planCandidates fs admitted seen more
      (found ++ later, seen) := by
  induction candidates with
  | nil => exact fun seen => rfl
  | cons path rest ih =>
    intro seen
    rw [List.cons_append, planCandidates, planCandidates]
    split
    · rw [ih]
      rfl
    · exact ih seen

/-- A given path that can be searched stands for its candidates, as far as they have not been
seen. -/
theorem eq_of_planPath {planned : List Target × List Path}
    (h : planPath config fs seen path = .ok planned) :
    planned = planCandidates fs (fun _ => true) seen (candidatesOf config fs path) := by
  rw [planPath] at h
  rw [candidatesOf]
  by_cases hignored : hasIgnoredPart config.ignoredNames path = true
  · rw [if_pos hignored] at h ⊢
    exact (Except.ok.inj h).symm
  rw [if_neg hignored] at h ⊢
  cases hdir : fs.isDirectory path with
  | error problem =>
    rw [hdir] at h
    cases h
  | ok directory =>
    rw [hdir] at h
    cases directory with
    | false => exact (Except.ok.inj h).symm
    | true =>
      cases hentries : entriesBelowPath fs path with
      | error error =>
        rw [hentries] at h
        cases h
      | ok entries =>
        rw [hentries] at h
        simp only at h ⊢
        rw [planCandidates_filter] at h
        exact (Except.ok.inj h).symm

/-- The targets are the paths that the given ones stand for, each once, if the search comes to an
end. -/
theorem plan_eq_planCandidates (config : Config) (fs : FileSystem) (paths : List Path) :
    ∀ seen, (plan config fs seen paths).2 = none → (plan config fs seen paths).1 =
      (planCandidates fs (fun _ => true) seen (paths.flatMap (candidatesOf config fs))).1 := by
  induction paths with
  | nil => exact fun seen _ => rfl
  | cons path rest ih =>
    intro seen hend
    rw [plan] at hend ⊢
    rw [List.flatMap_cons, planCandidates_append]
    cases hplanned : planPath config fs seen path with
    | error fault =>
      rw [hplanned] at hend
      cases hend
    | ok planned =>
      rw [hplanned] at hend
      rw [← eq_of_planPath hplanned]
      exact congrArg (planned.1 ++ ·) (ih planned.2 hend)

/-- The path of a target from the root on, by which targets are told apart. -/
def Target.key (fs : FileSystem) (t : Target) : Path := t.path.absolute fs.workingDirectory

/-- No target comes twice, and the targets are the candidates that have not been seen before. -/
theorem nodup_key_planCandidates (fs : FileSystem) (candidates : List Path) :
    ∀ seen, ((planCandidates fs (fun _ => true) seen candidates).1.map (Target.key fs)).Nodup ∧
      ∀ key, key ∈ (planCandidates fs (fun _ => true) seen candidates).1.map (Target.key fs) ↔
        key ∉ seen ∧ key ∈ candidates.map (·.absolute fs.workingDirectory) := by
  induction candidates with
  | nil => simp [planCandidates]
  | cons path rest ih =>
    intro seen
    rw [planCandidates]
    by_cases hseen : path.absolute fs.workingDirectory ∈ seen
    · -- A path that has been seen is passed over.
      rw [if_neg (by simpa using hseen)]
      obtain ⟨hnodup, hmem⟩ := ih seen
      refine ⟨hnodup, fun key => (hmem key).trans ?_⟩
      rw [List.map_cons, List.mem_cons]
      constructor
      · rintro ⟨hnew, hin⟩
        exact ⟨hnew, Or.inr hin⟩
      · rintro ⟨hnew, rfl | hin⟩
        · exact absurd hseen hnew
        · exact ⟨hnew, hin⟩
    · -- A new one becomes a target, and counts as seen from here on.
      rw [if_pos (by simpa using hseen)]
      obtain ⟨hnodup, hmem⟩ := ih (path.absolute fs.workingDirectory :: seen)
      refine ⟨List.nodup_cons.mpr ⟨fun hin => ?_, hnodup⟩, fun key => ?_⟩
      · exact ((hmem _).mp hin).1 List.mem_cons_self
      · rw [List.map_cons, List.map_cons, List.mem_cons, List.mem_cons, hmem, List.mem_cons]
        constructor
        · rintro (rfl | ⟨hnew, hin⟩)
          · exact ⟨hseen, Or.inl rfl⟩
          · exact ⟨fun h => hnew (Or.inr h), Or.inr hin⟩
        · rintro ⟨hnew, hin⟩
          by_cases hkey : key = path.absolute fs.workingDirectory
          · exact Or.inl hkey
          · exact Or.inr ⟨not_or.mpr ⟨hkey, hnew⟩, hin.resolve_left hkey⟩

theorem nodup_key_plan (hend : (plan config fs seen paths).2 = none) :
    ((plan config fs seen paths).1.map (Target.key fs)).Nodup := by
  rw [plan_eq_planCandidates _ _ _ _ hend]
  exact (nodup_key_planCandidates fs _ seen).1

/-- The targets, as seen from the root, do not depend on the order of the given paths. -/
theorem perm_key_plan (hpaths : paths.Perm paths') (hend : (plan config fs [] paths).2 = none)
    (hend' : (plan config fs [] paths').2 = none) :
    ((plan config fs [] paths).1.map (Target.key fs)).Perm
      ((plan config fs [] paths').1.map (Target.key fs)) := by
  rw [plan_eq_planCandidates _ _ _ _ hend, plan_eq_planCandidates _ _ _ _ hend']
  obtain ⟨hnodup, hmem⟩ := nodup_key_planCandidates fs (paths.flatMap (candidatesOf config fs)) []
  obtain ⟨hnodup', hmem'⟩ :=
    nodup_key_planCandidates fs (paths'.flatMap (candidatesOf config fs)) []
  refine (List.perm_ext_iff_of_nodup hnodup hnodup').mpr fun key => ?_
  rw [hmem, hmem']
  exact and_congr_right fun _ => ((hpaths.flatMap_right _).map _).mem_iff

/-- A file that is given in two spellings is one target, and the first spelling is its name. -/
theorem plan_spellings {q : Path} (hwanted : hasIgnoredPart config.ignoredNames path = false)
    (hwanted' : hasIgnoredPart config.ignoredNames q = false)
    (hfile : fs.isDirectory path = .ok false) (hfile' : fs.isDirectory q = .ok false)
    (hsame : path.absolute fs.workingDirectory = q.absolute fs.workingDirectory) :
    plan config fs [] [path, q] = ([⟨path, fs.isReadable path⟩], none) := by
  simp [plan, planPath, planCandidates, hwanted, hwanted', hfile, hfile', hsame]

/-! ### Targets and look-ups -/

/-- A given path stands for itself, or it denotes a directory, and then for plain files below it. -/
theorem candidatesOf_cases {candidate : Path} (h : candidate ∈ candidatesOf config fs path) :
    fs.isDirectory path = .ok false ∧ candidate = path ∨
      ∃ place mode names, path.hasNul = false ∧ fs.find .target path = .ok (place, .directory mode) ∧
        names ∈ fs.entriesBelow place ∧ candidate = path.below names ∧
          fs.isPlainFile candidate = true := by
  rw [candidatesOf] at h
  split at h
  · cases h
  split at h
  · rename_i hdir
    exact Or.inl ⟨hdir, List.mem_singleton.mp h⟩
  · rename_i entries hdir hentries
    obtain ⟨hmem, hadmitted⟩ := List.mem_filter.mp h
    obtain ⟨names, hnames, rfl⟩ := List.mem_map.mp hmem
    obtain ⟨hnul, place, mode, hfind⟩ := FileSystem.isDirectory_eq_true_iff.mp hdir
    refine Or.inr ⟨place, mode, names, hnul, hfind, ?_, rfl, ?_⟩
    · rcases entriesBelowPath_cases (FileSystem.find_eq_ok_iff.mp hfind).1 with
        ⟨hall, -⟩ | ⟨_, -, -, _, -, herror⟩
      · rw [hall] at hentries
        cases hentries
        exact hnames
      · rw [herror] at hentries
        cases hentries
    · rw [admittedBelow_below, Config.admits, Bool.and_eq_true, Bool.and_eq_true] at hadmitted
      exact hadmitted.1.1
  · cases h

theorem standsFor_of_mem_candidatesOf (h : t.path ∈ candidatesOf config fs path) :
    StandsFor fs path t := by
  rcases candidatesOf_cases h with ⟨-, hpath⟩ | ⟨place, -, names, -, -, hnames, hpath, -⟩
  · exact Or.inl hpath
  · exact Or.inr ⟨place, names, hnames, hpath⟩

/-- What can be searched, and what is taken from a directory, can be looked up. -/
theorem hasNul_or_not_barred_of_mem_candidatesOf {candidate : Path}
    (h : candidate ∈ candidatesOf config fs path) :
    candidate.hasNul = true ∨ ¬ fs.Barred candidate := by
  rw [← Bool.not_eq_false, ← not_and_or]
  rintro ⟨hnul, problem, hbars, hlocate⟩
  rcases candidatesOf_cases h with ⟨hdir, rfl⟩ | ⟨place, -, names, -, -, -, -, hplain⟩
  · -- The path itself was asked about, and there was an answer.
    rw [FileSystem.isDirectory_eq_error_iff.mpr ⟨hnul, hlocate, hbars⟩] at hdir
    cases hdir
  · -- What is taken from a directory is known to be a file.
    obtain ⟨-, hfile⟩ := FileSystem.isPlainFile_eq_true_iff.mp hplain
    obtain ⟨-, place, node, hfind, -⟩ := FileSystem.test_eq_true_iff.mp hfile
    rw [(FileSystem.find_eq_ok_iff.mp hfind).1] at hlocate
    cases hlocate

/-- A target that a search has found. Its path can be looked up, unless it holds a character that no
name can have. -/
structure FileSystem.Found (fs : FileSystem) (t : Target) : Prop where
  proper : t.path.Proper
  readable_eq : t.readable = fs.isReadable t.path
  looked : t.path.hasNul = true ∨ ¬ fs.Barred t.path

theorem found_of_mem_candidatesOf (htree : fs.IsTree) (hpath : path.Proper)
    (hreadable : t.readable = fs.isReadable t.path) (h : t.path ∈ candidatesOf config fs path) :
    fs.Found t where
  proper := (standsFor_of_mem_candidatesOf h).proper htree hpath
  readable_eq := hreadable
  looked := hasNul_or_not_barred_of_mem_candidatesOf h

theorem found_of_mem_plan (htree : fs.IsTree) (hpaths : ∀ path ∈ paths, path.Proper)
    (hend : (plan config fs seen paths).2 = none) (h : t ∈ (plan config fs seen paths).1) :
    fs.Found t := by
  rw [plan_eq_planCandidates _ _ _ _ hend] at h
  obtain ⟨hmem, hreadable⟩ := mem_planCandidates _ h
  obtain ⟨path, hpath, hcandidate⟩ := List.mem_flatMap.mp hmem
  exact found_of_mem_candidatesOf htree (hpaths path hpath) hreadable hcandidate

/-- Where the file that a path denotes stands, by the names that lead to it from the root. A path
that denotes nothing stands for itself. -/
def FileSystem.standing (fs : FileSystem) (path : Path) : Path :=
  match path.hasNul, fs.realPath path with
  | false, .ok place => place
  | _, _ => path.absolute fs.workingDirectory

namespace FileSystem.Found

variable {t' : Target} (htree : fs.IsTree) (h : fs.Found t) (h' : fs.Found t')
  (hkey : t.key fs = t'.key fs)

include htree h h' hkey

/-- Targets that are the same from the root on are looked up alike, unless no path can be as
theirs. -/
theorem hasNul_or_locate_eq : t.path.hasNul = true ∧ t'.path.hasNul = true ∨
    t.path.hasNul = false ∧ t'.path.hasNul = false ∧
      (t.path ≠ t'.path → fs.Passable [] fs.workingDirectory) ∧
        ∀ aim, aim ≠ .file → fs.locate aim t'.path = fs.locate aim t.path := by
  have hnul := htree.hasNul_eq hkey
  rcases h.looked with hnul' | hlooked
  · exact Or.inl ⟨hnul', hnul.trans hnul'⟩
  rcases h'.looked with hnul' | hlooked'
  · exact Or.inl ⟨hnul.symm.trans hnul', hnul'⟩
  cases hcontains : t.path.hasNul with
  | true => exact Or.inl ⟨rfl, hnul.trans hcontains⟩
  | false =>
    -- Neither look-up is barred, or the search would have ended there.
    have hpass := htree.passable_of_spellings hkey hlooked hlooked'
    have hroom := iff_of_true (lt_pathLimit_of_not_barred hlooked)
      (lt_pathLimit_of_not_barred hlooked')
    refine Or.inr ⟨rfl, hnul.trans hcontains, hpass, fun aim => ?_⟩
    exact htree.locate_eq hkey hpass (fun hp => htree.isSearchable_of_not_barred hp hlooked)
      (fun hq => htree.isSearchable_of_not_barred hq hlooked') hroom

theorem standing_eq : fs.standing t'.path = fs.standing t.path := by
  have habsolute : t'.path.absolute fs.workingDirectory = t.path.absolute fs.workingDirectory :=
    hkey.symm
  rw [standing, standing, realPath, realPath, habsolute]
  rcases hasNul_or_locate_eq htree h h' hkey with ⟨hnul, hnul'⟩ | ⟨hnul, hnul', -, hlocate⟩
  · rw [hnul, hnul']
  · rw [hnul, hnul', hlocate .target (by decide)]

theorem readable_eq_readable : t'.readable = t.readable := by
  rw [h.readable_eq, h'.readable_eq, isReadable, isReadable, test, test]
  rcases hasNul_or_locate_eq htree h h' hkey with ⟨hnul, hnul'⟩ | ⟨hnul, hnul', -, hlocate⟩
  · rw [hnul, hnul']
    rfl
  · rw [hnul, hnul', FileSystem.find, FileSystem.find, hlocate .target (by decide)]

theorem alike (hreadable : t.readable = true) :
    (t.path ≠ t'.path → fs.Passable [] fs.workingDirectory) ∧ fs.Alike t.path t'.path := by
  have hfile := h.readable_eq.symm.trans hreadable
  have hreadable' := (readable_eq_readable htree h h' hkey).trans hreadable
  have hfile' := h'.readable_eq.symm.trans hreadable'
  have hnul := (isReadable_eq_true_iff.mp hfile).1
  rcases hasNul_or_locate_eq htree h h' hkey with ⟨hnul', -⟩ | ⟨-, -, hpass, hlocate⟩
  · rw [hnul] at hnul'
    cases hnul'
  · exact ⟨hpass, htree.hasNul_eq hkey,
      htree.endsInDots_eq hkey (htree.names_ne_nil hfile) (htree.names_ne_nil hfile'), hlocate⟩

end FileSystem.Found

end Letterhead
