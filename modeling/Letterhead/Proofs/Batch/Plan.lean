import Letterhead.Proofs.FileSystem.Shape
import Letterhead.Proofs.Session

/-!
# Finding targets before and while visiting them

Targets are looked for while others are visited. If visits keep the shape of the file system, this
makes no difference: the targets could all be found first, and visited one after the other then. When
the search itself fails, the targets that come before the failure have been visited.

## Main definitions

* `plan` — the targets of some paths in a file system, and the fault that ends the search
* `KeepsShape` — visits that keep the shape of a file system
* `IsTarget` — what the search finds for some of the first paths

## Main results

* `yields_discover` — visiting while searching is visiting what was planned
* `yields_targets` — the plan is what the search finds
-/

namespace Letterhead

open FileSystem (SameShape)

variable {α : Type} {fs₀ fs fs' : FileSystem} {config : Config} {visit : Target → SessionM α}

/-! ### The plan -/

/-- The targets among some candidates that have not been seen before, and all paths seen then. -/
def planCandidates (fs : FileSystem) (admitted : Path → Bool) :
    List Path → List Path → List Target × List Path
  | seen, [] => ([], seen)
  | seen, path :: rest =>
    let key := path.absolute fs.workingDirectory
    if admitted path && !seen.contains key then
      let (found, seen) := planCandidates fs admitted (key :: seen) rest
      (⟨path, fs.isReadable path⟩ :: found, seen)
    else planCandidates fs admitted seen rest

/-- Whether a path below `root` is taken. -/
def admittedBelow (config : Config) (root : Path) (fs : FileSystem) (candidate : Path) : Bool :=
  config.admits root fs (candidate.names.drop root.names.length)

/-- The targets that one path stands for, and all paths seen then. -/
def planPath (config : Config) (fs : FileSystem) (seen : List Path) (path : Path) :
    Except Fault (List Target × List Path) :=
  if hasIgnoredPart config.ignoredNames path then .ok ([], seen)
  else
    match fs.isDirectory path with
    | .error problem => .error (.file ⟨problem, path.toString, none⟩)
    | .ok false => .ok (planCandidates fs (fun _ => true) seen [path])
    | .ok true =>
      match entriesBelowPath fs path with
      | .error fault => .error fault
      | .ok entries =>
        .ok (planCandidates fs (admittedBelow config path fs) seen (entries.map path.below))

/-- The targets of some paths as far as they can be found, and the fault at the path where the
search ends early. -/
def plan (config : Config) (fs : FileSystem) : List Path → List Path → List Target × Option Fault
  | _, [] => ([], none)
  | seen, path :: rest =>
    match planPath config fs seen path with
    | .error fault => ([], some fault)
    | .ok (found, seen) =>
      let (more, fault) := plan config fs seen rest
      (found ++ more, fault)

/-! ### Visits -/

/-- Visits that come to an end and keep the shape of a file system. -/
def KeepsShape (fs₀ : FileSystem) (visit : Target → SessionM α) : Prop :=
  ∀ fs, SameShape fs₀ fs → ∀ t, ∃ r fs', Yields (visit t) fs r fs' ∧ SameShape fs fs'

theorem KeepsShape.pure (fs₀ : FileSystem) : KeepsShape fs₀ (Pure.pure : Target → SessionM Target) :=
  fun fs _ t => ⟨.ok t, fs, .pure, SameShape.refl fs⟩

/-- One visit and then others come to a value if they all do. -/
theorem yields_mapM_cons {t : Target} {ts : List Target} {a : α} {r : Except Fault (List α)}
    {fs₁ : FileSystem} (h : Yields (visit t) fs (.ok a) fs₁)
    (hrest : Yields (ts.mapM visit) fs₁ r fs') :
    Yields ((t :: ts).mapM visit) fs (r.map (a :: ·)) fs' := by
  rw [List.mapM_cons]
  cases r with
  | error fault => exact h.bind hrest.bind_error
  | ok as => exact h.bind (hrest.bind .pure)

theorem yields_mapM_cons_error {t : Target} {fault : Fault} (h : Yields (visit t) fs (.error fault) fs')
    (ts : List Target) : Yields ((t :: ts).mapM visit) fs (.error fault) fs' := by
  rw [List.mapM_cons]
  exact h.bind_error

theorem yields_mapM_append {ts more : List Target} {as : List α} {r : Except Fault (List α)}
    {fs₁ : FileSystem} (h : Yields (ts.mapM visit) fs (.ok as) fs₁)
    (hmore : Yields (more.mapM visit) fs₁ r fs') :
    Yields ((ts ++ more).mapM visit) fs (r.map (as ++ ·)) fs' := by
  rw [List.mapM_append]
  cases r with
  | error fault => exact h.bind hmore.bind_error
  | ok bs => exact h.bind (hmore.bind .pure)

theorem yields_mapM_append_error {ts : List Target} {fault : Fault}
    (h : Yields (ts.mapM visit) fs (.error fault) fs') (more : List Target) :
    Yields ((ts ++ more).mapM visit) fs (.error fault) fs' := by
  rw [List.mapM_append]
  exact h.bind_error

/-- Visits that leave the files as they are come to what they come to one by one. -/
theorem yields_mapM_still {f : Target → Except Fault α} (h : ∀ t, Yields (visit t) fs (f t) fs)
    (ts : List Target) : Yields (ts.mapM visit) fs (ts.mapM f) fs := by
  induction ts with
  | nil => exact .pure
  | cons t ts ih =>
    rw [List.mapM_cons, List.mapM_cons]
    exact (h t).bind_still fun a => ih.bind_still fun as => .pure

/-! ### Searching and visiting -/

section Candidate

variable {admitted : FileSystem → Path → Bool} {seen rest : List Path} {path : Path} {a : α}
  {fault : Fault} {fs₁ : FileSystem} {r : Except Fault (List α × List Path)}

/-- A candidate that is taken is visited before the others. -/
theorem yields_visitCandidates_taken
    (htaken : admitted fs path && !seen.contains (path.absolute fs.workingDirectory))
    (hvisited : Yields (visit ⟨path, fs.isReadable path⟩) fs (.ok a) fs₁)
    (hrest : Yields (visitCandidates visit admitted (path.absolute fs.workingDirectory :: seen) rest)
      fs₁ r fs') :
    Yields (visitCandidates visit admitted seen (path :: rest)) fs
      (r.map fun found => (a :: found.1, found.2)) fs' := by
  rw [visitCandidates]
  refine Yields.get_bind fun s hs => ?_
  rw [hs]
  simp only [htaken, if_true]
  refine hvisited.bind ?_
  cases r with
  | error fault => exact hrest.bind_error
  | ok found => exact hrest.bind .pure

theorem yields_visitCandidates_failed
    (htaken : admitted fs path && !seen.contains (path.absolute fs.workingDirectory))
    (hvisited : Yields (visit ⟨path, fs.isReadable path⟩) fs (.error fault) fs₁) (rest : List Path) :
    Yields (visitCandidates visit admitted seen (path :: rest)) fs (.error fault) fs₁ := by
  rw [visitCandidates]
  refine Yields.get_bind fun s hs => ?_
  rw [hs]
  simp only [htaken, if_true]
  exact hvisited.bind_error

theorem yields_visitCandidates_passed
    (htaken : ¬ (admitted fs path && !seen.contains (path.absolute fs.workingDirectory)) = true)
    (hrest : Yields (visitCandidates visit admitted seen rest) fs r fs') :
    Yields (visitCandidates visit admitted seen (path :: rest)) fs r fs' := by
  rw [visitCandidates]
  refine Yields.get_bind fun s hs => ?_
  rw [hs]
  simp only [htaken]
  exact hrest

end Candidate

/-- The candidates are judged by the file system as it is when their turn comes, which has the shape
of the first one. -/
theorem yields_visitCandidates (hvisit : KeepsShape fs₀ visit)
    {admitted : FileSystem → Path → Bool}
    (hadmitted : ∀ fs, SameShape fs₀ fs → admitted fs = admitted fs₀) (candidates : List Path) :
    ∀ seen fs, SameShape fs₀ fs → ∃ r fs', SameShape fs₀ fs' ∧
      Yields ((planCandidates fs₀ (admitted fs₀) seen candidates).1.mapM visit) fs r fs' ∧
        Yields (visitCandidates visit admitted seen candidates) fs
          (r.map fun results => (results, (planCandidates fs₀ (admitted fs₀) seen candidates).2))
          fs' := by
  induction candidates with
  | nil =>
    intro seen fs hshape
    exact ⟨.ok [], fs, hshape, .pure, .pure⟩
  | cons path rest ih =>
    intro seen fs hshape
    -- All that is asked about the candidate now has the answer that it had at first.
    have hkey : path.absolute fs.workingDirectory = path.absolute fs₀.workingDirectory := by
      rw [hshape.workingDirectory]
    have hreadable := hshape.isReadable path
    rw [planCandidates, ← hadmitted fs hshape, ← hkey, ← hreadable]
    by_cases htaken : (admitted fs path && !seen.contains (path.absolute fs.workingDirectory)) = true
    · rw [if_pos htaken, hadmitted fs hshape]
      obtain ⟨r, fs₁, hvisited, hshape₁⟩ := hvisit fs hshape ⟨path, fs.isReadable path⟩
      cases r with
      | error fault =>
        exact ⟨.error fault, fs₁, hshape.trans hshape₁, yields_mapM_cons_error hvisited _,
          yields_visitCandidates_failed htaken hvisited rest⟩
      | ok a =>
        obtain ⟨r, fs₂, hshape₂, hplanned, hrest⟩ :=
          ih (path.absolute fs.workingDirectory :: seen) fs₁ (hshape.trans hshape₁)
        refine ⟨r.map (a :: ·), fs₂, hshape₂, yields_mapM_cons hvisited hplanned, ?_⟩
        have htaken' := yields_visitCandidates_taken htaken hvisited hrest
        cases r with
        | error fault => exact htaken'
        | ok results => exact htaken'
    · rw [if_neg htaken, hadmitted fs hshape]
      obtain ⟨r, fs', hshape', hplanned, hrest⟩ := ih seen fs hshape
      exact ⟨r, fs', hshape', hplanned, yields_visitCandidates_passed htaken hrest⟩

/-- What comes of visiting, when the search for more targets may fail afterwards. -/
def endWith {β : Type} (fault : Option Fault) : Except Fault β → Except Fault β
  | .error fault => .error fault
  | .ok results =>
    match fault with
    | none => .ok results
    | some fault => .error fault

section Directory

variable {seen : List Path} {path : Path} {entries : List (List String)}
  {r : Except Fault (List α × List Path)}

/-- Below a directory the entries are visited that the settings admit. -/
theorem yields_visitPath_directory (hignored : ¬ hasIgnoredPart config.ignoredNames path = true)
    (hdir : fs.isDirectory path = .ok true) (hentries : entriesBelowPath fs path = .ok entries)
    (hrest : Yields (visitCandidates visit (admittedBelow config path) seen
      (entries.map path.below)) fs r fs') :
    Yields (visitPath config visit seen path) fs r fs' := by
  rw [visitPath, if_neg hignored]
  refine (Yields.ask hdir).bind (Yields.get_bind fun s hs => ?_)
  rw [hs, hentries]
  exact hrest

theorem yields_visitPath_unlistable {fault : Fault}
    (hignored : ¬ hasIgnoredPart config.ignoredNames path = true)
    (hdir : fs.isDirectory path = .ok true) (hentries : entriesBelowPath fs path = .error fault)
    (visit : Target → SessionM α) (seen : List Path) :
    Yields (visitPath config visit seen path) fs (.error fault) fs := by
  rw [visitPath, if_neg hignored]
  refine (Yields.ask hdir).bind (Yields.get_bind fun s hs => ?_)
  rw [hs, hentries]
  exact .throw

end Directory

theorem yields_visitPath (config : Config) (hvisit : KeepsShape fs₀ visit) (seen : List Path)
    (path : Path) (hshape : SameShape fs₀ fs) :
    match planPath config fs₀ seen path with
    | .error fault => Yields (visitPath config visit seen path) fs (.error fault) fs
    | .ok (found, seen') => ∃ r fs', SameShape fs₀ fs' ∧ Yields (found.mapM visit) fs r fs' ∧
      Yields (visitPath config visit seen path) fs (r.map fun results => (results, seen')) fs' := by
  rw [planPath]
  by_cases hignored : hasIgnoredPart config.ignoredNames path = true
  · rw [if_pos hignored, visitPath, if_pos hignored]
    exact ⟨.ok [], fs, hshape, .pure, Yields.note.bind .pure⟩
  rw [if_neg hignored, ← hshape.isDirectory]
  cases hdir : fs.isDirectory path with
  | error problem =>
    rw [visitPath, if_neg hignored]
    exact (Yields.ask_error hdir).bind_error
  | ok directory =>
    cases directory with
    | false =>
      have hadmitted : ∀ fs, SameShape fs₀ fs →
          (fun (_ : FileSystem) (_ : Path) => true) fs = fun _ => true := fun _ _ => rfl
      obtain ⟨r, fs', hshape', hplanned, hrest⟩ :=
        yields_visitCandidates hvisit hadmitted [path] seen fs hshape
      rw [visitPath, if_neg hignored]
      exact ⟨r, fs', hshape', hplanned, (Yields.ask hdir).bind hrest⟩
    | true =>
      simp only
      rw [← hshape.entriesBelowPath]
      cases hentries : entriesBelowPath fs path with
      | error fault => exact yields_visitPath_unlistable hignored hdir hentries visit seen
      | ok entries =>
        have hadmitted : ∀ fs, SameShape fs₀ fs →
            admittedBelow config path fs = admittedBelow config path fs₀ :=
          fun fs h => funext fun candidate => h.admits config path _
        obtain ⟨r, fs', hshape', hplanned, hrest⟩ :=
          yields_visitCandidates hvisit hadmitted (entries.map path.below) seen fs hshape
        exact ⟨r, fs', hshape', hplanned,
          yields_visitPath_directory hignored hdir hentries hrest⟩

theorem endWith_map {β γ : Type} (f : β → γ) (fault : Option Fault) (r : Except Fault β) :
    endWith fault (r.map f) = (endWith fault r).map f := by
  cases r <;> cases fault <;> rfl

/-- Visiting comes to an end if it meets no fault, and the search meets none. -/
theorem endWith_eq_ok_iff {β : Type} {fault : Option Fault} {r : Except Fault β} {b : β} :
    endWith fault r = .ok b ↔ fault = none ∧ r = .ok b := by
  cases r <;> cases fault <;> simp [endWith]

theorem yields_discoverFrom (config : Config) (hvisit : KeepsShape fs₀ visit)
    (paths : List Path) :
    ∀ seen fs, SameShape fs₀ fs → ∃ r fs', SameShape fs₀ fs' ∧
      Yields ((plan config fs₀ seen paths).1.mapM visit) fs r fs' ∧
        Yields (discoverFrom config visit seen paths) fs (endWith (plan config fs₀ seen paths).2 r)
          fs' := by
  induction paths with
  | nil =>
    intro seen fs hshape
    exact ⟨.ok [], fs, hshape, .pure, .pure⟩
  | cons path rest ih =>
    intro seen fs hshape
    have hpath := yields_visitPath config hvisit seen path hshape
    rw [plan, discoverFrom]
    cases hplan : planPath config fs₀ seen path with
    | error fault =>
      -- The search ends here, and nothing is visited for this path or a later one.
      rw [hplan] at hpath
      exact ⟨.ok [], fs, hshape, .pure, hpath.bind_error⟩
    | ok planned =>
      obtain ⟨found, seen'⟩ := planned
      rw [hplan] at hpath
      obtain ⟨r, fs₁, hshape₁, hplanned, hvisited⟩ := hpath
      cases r with
      | error fault =>
        -- A visit has failed, so whether the search would fail later does not matter.
        exact ⟨.error fault, fs₁, hshape₁, yields_mapM_append_error hplanned _, hvisited.bind_error⟩
      | ok results =>
        obtain ⟨r, fs₂, hshape₂, hplanned', hrest⟩ := ih seen' fs₁ hshape₁
        refine ⟨r.map (results ++ ·), fs₂, hshape₂, yields_mapM_append hplanned hplanned',
          hvisited.bind ?_⟩
        rw [endWith_map]
        cases hend : endWith (plan config fs₀ seen' rest).2 r with
        | error fault =>
          rw [hend] at hrest
          exact hrest.bind_error
        | ok more =>
          rw [hend] at hrest
          exact hrest.bind .pure

/-- Visiting targets while they are looked for comes to the same as visiting those that are planned,
and ends with the fault of the search if there is one. -/
theorem yields_discover (config : Config) (hvisit : KeepsShape fs₀ visit) (paths : List Path) :
    ∃ r fs', SameShape fs₀ fs' ∧ Yields ((plan config fs₀ [] paths).1.mapM visit) fs₀ r fs' ∧
      Yields (discover config visit paths) fs₀ (endWith (plan config fs₀ [] paths).2 r) fs' :=
  yields_discoverFrom config hvisit paths [] fs₀ (SameShape.refl fs₀)

/-- The search alone finds what is planned. -/
theorem yields_targets (config : Config) (fs₀ : FileSystem) (paths : List Path) :
    Yields (targets config paths) fs₀
      (endWith (plan config fs₀ [] paths).2 (.ok (plan config fs₀ [] paths).1)) fs₀ := by
  obtain ⟨r, fs', -, hplanned, hfound⟩ := yields_discover config (.pure fs₀) paths
  have hpure : Yields ((plan config fs₀ [] paths).1.mapM (pure : Target → SessionM Target)) fs₀
      (.ok (plan config fs₀ [] paths).1) fs₀ := by
    change Yields (List.mapM (fun t => pure (id t)) _) fs₀ _ fs₀
    rw [List.mapM_pure, List.map_id]
    exact .pure
  obtain ⟨rfl, rfl⟩ := hplanned.unique hpure
  exact hfound

theorem yields_targets_of_plan {paths : List Path} {found : List Target} {fault : Option Fault}
    (hplan : plan config fs [] paths = (found, fault)) :
    Yields (targets config paths) fs (endWith fault (.ok found)) fs := by
  have hfound := yields_targets config fs paths
  rwa [hplan] at hfound

/-- A search that comes to its end finds all that is planned. -/
theorem yields_targets_of_end {paths : List Path} (hend : (plan config fs [] paths).2 = none) :
    Yields (targets config paths) fs (.ok (plan config fs [] paths).1) fs := by
  have hplan : plan config fs [] paths = ((plan config fs [] paths).1, none) := Prod.ext rfl hend
  exact yields_targets_of_plan hplan

/-- A target that the search finds for some of the paths, taken from the first on. -/
def IsTarget (config : Config) (fs : FileSystem) (paths : List Path) (t : Target) : Prop :=
  ∃ taken rest found, paths = taken ++ rest ∧ Yields (targets config taken) fs (.ok found) fs ∧
    t ∈ found

/-- Up to the path where it ends, the search meets no fault. -/
theorem exists_plan_prefix (config : Config) (fs : FileSystem) (paths : List Path) :
    ∀ seen, ∃ taken rest, paths = taken ++ rest ∧
      plan config fs seen taken = ((plan config fs seen paths).1, none) := by
  induction paths with
  | nil => exact fun seen => ⟨[], [], rfl, rfl⟩
  | cons path rest ih =>
    intro seen
    cases hplan : planPath config fs seen path with
    | error fault => exact ⟨[], path :: rest, rfl, by rw [plan, plan, hplan]⟩
    | ok planned =>
      obtain ⟨found, seen'⟩ := planned
      obtain ⟨taken, left, rfl, htaken⟩ := ih seen'
      refine ⟨path :: taken, left, rfl, ?_⟩
      rw [plan, plan, hplan]
      simp only [htaken]

theorem isTarget_of_mem_plan {paths : List Path} {t : Target}
    (h : t ∈ (plan config fs [] paths).1) : IsTarget config fs paths t := by
  obtain ⟨taken, rest, hpaths, hplan⟩ := exists_plan_prefix config fs paths []
  exact ⟨taken, rest, _, hpaths, yields_targets_of_plan hplan, h⟩

end Letterhead
