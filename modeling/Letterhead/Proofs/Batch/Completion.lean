import Letterhead.Proofs.Batch.Consistency
import Letterhead.Proofs.Update.Fault

/-!
# What can end a batch early

Once a target has been found, nothing that happens at it ends the batch, as long as the settings are in
order. The search for targets is another matter. It asks about each given path and lists all that is
below a directory. There a path or a name that is too long stops everything, a directory that may not
be searched on the way to a given path, and directories too deep in each other. Nothing else does.

## Main definitions

* `FileSystem.StopsSearch` — the search cannot get past a path
* `Settled` — an outcome is that of a target

## Main results

* `plan_cases` — the search ends early just if it cannot get past a path
* `processTarget_settled` — every target has an outcome
* `runBatch_settled` — a batch has an outcome for every target, or ends at a path that the search cannot
  get past
-/

namespace Letterhead

open FileSystem (SameShape)

variable {u : Updater} {fs fs' : FileSystem} {t : Target} {config : Config} {path : Path}

/-! ### The search -/

/-- The search for targets cannot get past a path, for a fault. Either the path cannot be examined, as
its look-up is barred. Or it denotes a directory, and of the directories listed below it one lies too
deep, or has a path that is too long. -/
inductive FileSystem.StopsSearch (fs : FileSystem) (path : Path) : Fault → Prop
  | barred {problem : Problem} (hnul : path.hasNul = false) (hbars : problem.Bars)
      (hlocate : fs.locate .target path = .error problem) :
      StopsSearch fs path (.file ⟨problem, path.toString, none⟩)
  | tooDeep {place : Location} {mode : Nat} {names : List String} (hnul : path.hasNul = false)
      (hfind : fs.find .target path = .ok (place, .directory mode))
      (hnames : names ∈ fs.entriesBelow place) (hdir : fs.has Node.isDirectory (place ++ names))
      (hdeep : nestingLimit < names.length) : StopsSearch fs path .nestedTooDeep
  | tooLong {place : Location} {mode : Nat} {names : List String} (hnul : path.hasNul = false)
      (hfind : fs.find .target path = .ok (place, .directory mode))
      (hnames : names ∈ fs.entriesBelow place) (hdir : fs.has Node.isDirectory (place ++ names))
      (hdeep : names.length ≤ nestingLimit)
      (hlong : FileSystem.pathLimit ≤ (path.below names).toString.utf8ByteSize) :
      StopsSearch fs path (.file ⟨.nameTooLong, (path.below names).toString, none⟩)

/-- A directory listed below a path can be opened unless the search stops there. -/
theorem stopsSearch_of_openingFault? {place : Location} {mode : Nat} {names : List String}
    {fault : Fault} (hnul : path.hasNul = false)
    (hfind : fs.find .target path = .ok (place, .directory mode))
    (hnames : names ∈ fs.entriesBelow place) (hdir : fs.has Node.isDirectory (place ++ names))
    (hfault : openingFault? path names = some fault) : fs.StopsSearch path fault := by
  rw [openingFault?] at hfault
  split at hfault
  · rename_i hdeep
    cases hfault
    exact .tooDeep hnul hfind hnames hdir hdeep
  · rename_i hdeep
    split at hfault
    · rename_i hlong
      cases hfault
      exact .tooLong hnul hfind hnames hdir (Nat.not_lt.mp hdeep) hlong
    · cases hfault

/-- All that is below a directory is listed, or one of the directories there cannot be opened. -/
theorem entriesBelowPath_cases {place : Location} (hplace : fs.locate .target path = .ok place) :
    (entriesBelowPath fs path = .ok (fs.entriesBelow place) ∧
      ∀ names ∈ fs.entriesBelow place, fs.has Node.isDirectory (place ++ names) →
        openingFault? path names = none) ∨
    ∃ names ∈ fs.entriesBelow place, fs.has Node.isDirectory (place ++ names) ∧
      ∃ fault, openingFault? path names = some fault ∧ entriesBelowPath fs path = .error fault := by
  rw [entriesBelowPath, hplace]
  simp only
  split
  · rename_i fault hfound
    obtain ⟨names, hnames, hfault⟩ := List.exists_of_findSome?_eq_some hfound
    split at hfault
    · rename_i hdir
      exact Or.inr ⟨names, hnames, hdir, fault, hfault, rfl⟩
    · cases hfault
  · rename_i hnone
    refine Or.inl ⟨rfl, fun names hnames hdir => ?_⟩
    have hopen := List.findSome?_eq_none_iff.mp hnone names hnames
    rwa [if_pos hdir] at hopen

/-- A path that has been examined, and is no directory, does not stop the search. -/
theorem not_stopsSearch_of_isDirectory_false {fault : Fault} (hdir : fs.isDirectory path = .ok false) :
    ¬ fs.StopsSearch path fault := by
  have hnone {place : Location} {mode : Nat} (hnul : path.hasNul = false)
      (hfind : fs.find .target path = .ok (place, .directory mode)) : False := by
    rw [FileSystem.isDirectory_eq_true_iff.mpr ⟨hnul, place, mode, hfind⟩] at hdir
    cases hdir
  rintro (⟨hnul, hbars, hlocate⟩ | ⟨hnul, hfind⟩ | ⟨hnul, hfind⟩)
  · rw [FileSystem.isDirectory_eq_error_iff.mpr ⟨hnul, hlocate, hbars⟩] at hdir
    cases hdir
  · exact hnone hnul hfind
  · exact hnone hnul hfind

/-- Nor does a directory of which everything has been listed. -/
theorem not_stopsSearch_of_openingFault? {place : Location} {mode : Nat} {fault : Fault}
    (hfind : fs.find .target path = .ok (place, .directory mode))
    (hopen : ∀ names ∈ fs.entriesBelow place, fs.has Node.isDirectory (place ++ names) →
      openingFault? path names = none) : ¬ fs.StopsSearch path fault := by
  have hplace {other : Location} {mode' : Nat}
      (hother : fs.find .target path = .ok (other, .directory mode')) : other = place := by
    rw [hfind] at hother
    cases hother
    rfl
  rintro (⟨-, hbars, hlocate⟩ | ⟨-, hother, hnames, hdir, hdeep⟩ |
    ⟨-, hother, hnames, hdir, hdeep, hlong⟩)
  · rw [(FileSystem.find_eq_ok_iff.mp hfind).1] at hlocate
    cases hlocate
  · obtain rfl := hplace hother
    have hnone := hopen _ hnames hdir
    rw [openingFault?, if_pos hdeep] at hnone
    cases hnone
  · obtain rfl := hplace hother
    have hnone := hopen _ hnames hdir
    rw [openingFault?, if_neg (Nat.not_lt.mpr hdeep), if_pos hlong] at hnone
    cases hnone

/-- The targets that a path stands for are found, unless the search cannot get past it. -/
theorem planPath_cases (config : Config) (fs : FileSystem) (seen : List Path) (path : Path) :
    (∃ planned, planPath config fs seen path = .ok planned ∧
      (hasIgnoredPart config.ignoredNames path = false → ∀ fault, ¬ fs.StopsSearch path fault)) ∨
    ∃ fault, planPath config fs seen path = .error fault ∧
      hasIgnoredPart config.ignoredNames path = false ∧ fs.StopsSearch path fault := by
  rw [planPath]
  cases hignored : hasIgnoredPart config.ignoredNames path with
  | true =>
    refine Or.inl ⟨_, rfl, fun hwanted => ?_⟩
    cases hwanted
  | false =>
    rw [if_neg Bool.false_ne_true]
    cases hdir : fs.isDirectory path with
    | error problem =>
      obtain ⟨hnul, hlocate, hbars⟩ := FileSystem.isDirectory_eq_error_iff.mp hdir
      exact Or.inr ⟨_, rfl, rfl, .barred hnul hbars hlocate⟩
    | ok directory =>
      cases directory with
      | false =>
        -- The path itself is the only candidate, and it has been looked up.
        exact Or.inl ⟨_, rfl, fun _ fault => not_stopsSearch_of_isDirectory_false hdir⟩
      | true =>
        obtain ⟨hnul, place, mode, hfind⟩ := FileSystem.isDirectory_eq_true_iff.mp hdir
        rcases entriesBelowPath_cases (FileSystem.find_eq_ok_iff.mp hfind).1 with
          ⟨hentries, hopen⟩ | ⟨names, hnames, hbelow, fault, hfault, hentries⟩
        · rw [hentries]
          exact Or.inl ⟨_, rfl, fun _ fault => not_stopsSearch_of_openingFault? hfind hopen⟩
        · rw [hentries]
          exact Or.inr ⟨fault, rfl, rfl,
            stopsSearch_of_openingFault? hnul hfind hnames hbelow hfault⟩

/-- The search comes to an end, unless it cannot get past one of the paths. -/
theorem plan_cases (config : Config) (fs : FileSystem) (paths : List Path) :
    ∀ seen, ((plan config fs seen paths).2 = none ∧ ∀ path ∈ paths,
        hasIgnoredPart config.ignoredNames path = false → ∀ fault, ¬ fs.StopsSearch path fault) ∨
      ∃ fault, (plan config fs seen paths).2 = some fault ∧ ∃ path ∈ paths,
        hasIgnoredPart config.ignoredNames path = false ∧ fs.StopsSearch path fault := by
  -- What has been seen before decides what is found, but not whether the search gets past a path.
  induction paths with
  | nil => exact fun seen => Or.inl ⟨rfl, fun path hpath => absurd hpath List.not_mem_nil⟩
  | cons path rest ih =>
    intro seen
    rw [plan]
    rcases planPath_cases config fs seen path with
      ⟨⟨found, seen'⟩, hplanned, hpath⟩ | ⟨fault, hplanned, hpath⟩
    · rw [hplanned]
      rcases ih seen' with ⟨hnone, hrest⟩ | ⟨fault, hsome, other, hother, hstops⟩
      · exact Or.inl ⟨hnone, List.forall_mem_cons.mpr ⟨hpath, hrest⟩⟩
      · exact Or.inr ⟨fault, hsome, other, List.mem_cons_of_mem _ hother, hstops⟩
    · rw [hplanned]
      exact Or.inr ⟨fault, rfl, path, List.mem_cons_self, hpath⟩

/-! ### What the search finds -/

theorem mem_planCandidates {admitted : Path → Bool} (candidates : List Path) :
    ∀ {seen}, t ∈ (planCandidates fs admitted seen candidates).1 →
      t.path ∈ candidates ∧ t.readable = fs.isReadable t.path := by
  induction candidates with
  | nil => exact fun h => absurd h List.not_mem_nil
  | cons path rest ih =>
    intro seen h
    rw [planCandidates] at h
    split at h
    · rcases List.mem_cons.mp h with rfl | h
      · exact ⟨List.mem_cons_self, rfl⟩
      · exact ⟨List.mem_cons_of_mem _ (ih h).1, (ih h).2⟩
    · exact ⟨List.mem_cons_of_mem _ (ih h).1, (ih h).2⟩

/-- A target below a given path, or the path itself. -/
def StandsFor (fs : FileSystem) (path : Path) (t : Target) : Prop :=
  t.path = path ∨ ∃ place, ∃ names ∈ fs.entriesBelow place, t.path = path.below names

theorem mem_entriesBelow_of_listed {entries : List (List String)} {names : List String}
    (hentries : entriesBelowPath fs path = .ok entries) (h : names ∈ entries) :
    ∃ place, names ∈ fs.entriesBelow place := by
  rw [entriesBelowPath] at hentries
  split at hentries
  · cases hentries
    exact absurd h List.not_mem_nil
  · rename_i place _
    simp only at hentries
    split at hentries
    · cases hentries
    · cases hentries
      exact ⟨place, h⟩

theorem standsFor_of_mem_planPath {seen seen' : List Path} {found : List Target}
    (hplanned : planPath config fs seen path = .ok (found, seen')) (h : t ∈ found) :
    StandsFor fs path t ∧ t.readable = fs.isReadable t.path := by
  rw [planPath] at hplanned
  split at hplanned
  · cases hplanned
    exact absurd h List.not_mem_nil
  split at hplanned
  · cases hplanned
  · have hfound : (planCandidates fs (fun _ => true) seen [path]).1 = found :=
      congrArg Prod.fst (Except.ok.inj hplanned)
    rw [← hfound] at h
    obtain ⟨hpath, hreadable⟩ := mem_planCandidates _ h
    exact ⟨Or.inl (List.mem_singleton.mp hpath), hreadable⟩
  · split at hplanned
    · cases hplanned
    · rename_i entries hentries
      have hfound : (planCandidates fs (admittedBelow config path fs) seen
          (entries.map path.below)).1 = found := congrArg Prod.fst (Except.ok.inj hplanned)
      rw [← hfound] at h
      obtain ⟨hpath, hreadable⟩ := mem_planCandidates _ h
      obtain ⟨names, hnames, hbelow⟩ := List.mem_map.mp hpath
      obtain ⟨place, hplace⟩ := mem_entriesBelow_of_listed hentries hnames
      exact ⟨Or.inr ⟨place, names, hplace, hbelow.symm⟩, hreadable⟩

theorem standsFor_of_mem_plan {paths : List Path} :
    ∀ {seen}, t ∈ (plan config fs seen paths).1 →
      (∃ path ∈ paths, StandsFor fs path t) ∧ t.readable = fs.isReadable t.path := by
  induction paths with
  | nil => exact fun h => absurd h List.not_mem_nil
  | cons path rest ih =>
    intro seen h
    rw [plan] at h
    split at h
    · exact absurd h List.not_mem_nil
    · rename_i found seen' hplanned
      rcases List.mem_append.mp h with h | h
      · obtain ⟨hpath, hreadable⟩ := standsFor_of_mem_planPath hplanned h
        exact ⟨⟨path, List.mem_cons_self, hpath⟩, hreadable⟩
      · obtain ⟨⟨other, hother, hpath⟩, hreadable⟩ := ih h
        exact ⟨⟨other, List.mem_cons_of_mem _ hother, hpath⟩, hreadable⟩

/-- What stands for a proper path in a tree has a proper path. -/
theorem StandsFor.proper (htree : fs.IsTree) (h : StandsFor fs path t) (hpath : path.Proper) :
    t.path.Proper := by
  rcases h with heq | ⟨place, names, hnames, heq⟩
  · rwa [heq]
  · rw [heq]
    intro name hname
    rcases List.mem_append.mp hname with hname | hname
    · exact hpath name hname
    · have hisName := htree.names_of_mem_entriesBelow hnames name hname
      exact ⟨hisName.ne_empty, hisName.ne_dot, hisName.no_slash⟩

/-! ### Targets -/

/-- An outcome is that of a target: it bears its name, and says that the target was skipped just if it
could not be read. -/
def Settled (t : Target) (o : Outcome) : Prop :=
  o.path = t.path.toString ∧ (o.status = .skipped ↔ t.readable = false)

theorem settled_of_verdict {o : Outcome} (hreadable : t.readable = true)
    (h : u.verdict fs t.path = .ok o) : Settled t o := by
  obtain ⟨i, rendered, -, rfl⟩ := Updater.exists_report_of_verdict h
  refine ⟨rfl, ?_⟩
  rw [hreadable, Updater.report]
  split <;> simp

/-- A target has an outcome of its own, whatever happens. -/
theorem processTarget_settled (h : u.InOrder) (htree : fs.IsTree) (hproper : t.path.Proper)
    (hfinding : t.readable = fs.isReadable t.path) :
    ∃ o fs', Yields (processTarget u t) fs (.ok o) fs' ∧ SameShape fs fs' ∧ Settled t o := by
  cases hreadable : t.readable with
  | false =>
    refine ⟨_, fs, yields_processTarget_unreadable u hreadable fs, SameShape.refl fs, rfl, ?_⟩
    simp [skippedOutcome, hreadable]
  | true =>
    have hfile := hfinding.symm.trans hreadable
    cases hmode : u.config.checkOnly with
    | true =>
      obtain ⟨o, hverdict⟩ := h.exists_verdict hfile
      have hcheck := u.yields_check t.path fs
      rw [hverdict] at hcheck
      have hprocess : Yields (processFile u t.path) fs (.ok o) fs := by
        rwa [processFile, if_pos hmode]
      exact ⟨o, fs, yields_processTarget hreadable hprocess, SameShape.refl fs,
        settled_of_verdict hreadable hverdict⟩
    | false =>
      have hprocess : processFile u t.path = u.update t.path := by simp [processFile, hmode]
      rcases u.update_verdict htree.homeReached t.path with
        ⟨fault, hupdate⟩ | ⟨o, fs', hupdate, hverdict, -⟩
      · -- The fault concerns this file alone, and becomes its outcome.
        obtain ⟨s', hexec, -⟩ := hupdate ⟨fs, []⟩ rfl
        have hcontained := h.concernsOneFile_of_update htree hproper hfile hexec
        rw [← hprocess] at hupdate
        have htarget := yields_processTarget hreadable hupdate
        rw [settle, failure, if_pos hcontained] at htarget
        refine ⟨_, fs, htarget, SameShape.refl fs, rfl, ?_⟩
        simp [hreadable]
      · rw [← hprocess] at hupdate
        have htarget := yields_processTarget hreadable hupdate
        obtain ⟨r, fs'', hyields, hprocessed⟩ := processTarget_cases hmode htree.homeReached t
        obtain ⟨rfl, rfl⟩ := hyields.unique htarget
        exact ⟨o, fs'', htarget, hprocessed.sameShape, settled_of_verdict hreadable hverdict⟩

/-- So have several targets, one after the other. -/
theorem exists_all_settled (h : u.InOrder) (htree : fs.IsTree) {ts : List Target}
    (hts : ∀ t ∈ ts, t.path.Proper ∧ t.readable = fs.isReadable t.path) :
    ∃ outcomes fs', Yields (ts.mapM (processTarget u)) fs (.ok outcomes) fs' ∧ SameShape fs fs' ∧
      List.Forall₂ Settled ts outcomes := by
  induction ts generalizing fs with
  | nil => exact ⟨[], fs, .pure, SameShape.refl fs, .nil⟩
  | cons t ts ih =>
    obtain ⟨⟨hproper, hreadable⟩, hrest⟩ := List.forall_mem_cons.mp hts
    obtain ⟨o, fs₁, hyields, hshape, hsettled⟩ := processTarget_settled h htree hproper hreadable
    -- Whatever has become of the first target, the later ones are as readable as they were found.
    obtain ⟨outcomes, fs₂, hyields', hshape', hall⟩ := ih (hshape.isTree htree) fun t' ht' =>
      ⟨(hrest t' ht').1, (hrest t' ht').2.trans (hshape.isReadable t'.path).symm⟩
    exact ⟨o :: outcomes, fs₂, yields_mapM_cons hyields hyields', hshape.trans hshape',
      .cons hsettled hall⟩

/-! ### The whole batch -/

theorem keepsShape_processTarget_checking (hmode : u.config.checkOnly = true) (fs : FileSystem) :
    KeepsShape fs (processTarget u) := by
  intro fs' _ t
  cases hreadable : t.readable with
  | false => exact ⟨_, fs', yields_processTarget_unreadable u hreadable fs', SameShape.refl fs'⟩
  | true =>
    have hprocess : Yields (processFile u t.path) fs' (u.verdict fs' t.path) fs' := by
      rw [processFile, if_pos hmode]
      exact u.yields_check t.path fs'
    exact ⟨_, fs', yields_processTarget hreadable hprocess, SameShape.refl fs'⟩

/-- A batch is a search, with an outcome for each target that is found. -/
theorem exists_yields_runBatch (h : u.InOrder) (htree : fs.IsTree) {paths : List Path}
    (hpaths : ∀ path ∈ paths, path.Proper) :
    ∃ outcomes fs', List.Forall₂ Settled (plan u.config fs [] paths).1 outcomes ∧
      Yields (runBatch u paths) fs (endWith (plan u.config fs [] paths).2 (.ok outcomes)) fs' := by
  have hkeeps : KeepsShape fs (processTarget u) := by
    cases hmode : u.config.checkOnly with
    | true => exact keepsShape_processTarget_checking hmode fs
    | false => exact keepsShape_processTarget hmode htree.homeReached
  -- The targets are processed while the search goes on, which comes to the same as planning them all.
  obtain ⟨r, fs', -, hplanned, hbatch⟩ := yields_discover u.config hkeeps paths
  obtain ⟨outcomes, fs'', hyields, -, hall⟩ := exists_all_settled h htree fun t ht => by
    obtain ⟨⟨path, hpath, hstands⟩, hreadable⟩ := standsFor_of_mem_plan ht
    exact ⟨hstands.proper htree (hpaths path hpath), hreadable⟩
  obtain ⟨rfl, rfl⟩ := hplanned.unique hyields
  exact ⟨outcomes, fs', hall, hbatch⟩

theorem proper_of_mem_map_parse {paths : List String} :
    ∀ path ∈ paths.map Path.parse, path.Proper := by
  intro path hpath
  obtain ⟨given, -, rfl⟩ := List.mem_map.mp hpath
  exact Path.proper_parse given

/-- A batch ends early only where the search cannot get past one of the given paths. Otherwise it has
one outcome for each target that is found, in their order. -/
theorem runBatch_settled (u : Updater) (h : u.InOrder) (paths : List String) (s : Session)
    (htree : s.files.IsTree) :
    match exec (runBatch u (paths.map Path.parse)) s with
    | (.ok outcomes, _) =>
      (∀ path ∈ paths.map Path.parse, hasIgnoredPart u.config.ignoredNames path = false →
        ∀ fault, ¬ s.files.StopsSearch path fault) ∧
      ∃ ts, Yields (targets u.config (paths.map Path.parse)) s.files (.ok ts) s.files ∧
        (∀ t ∈ ts, t.readable = s.files.isReadable t.path) ∧ List.Forall₂ Settled ts outcomes
    | (.error fault, _) =>
      ∃ path ∈ paths.map Path.parse, hasIgnoredPart u.config.ignoredNames path = false ∧
        s.files.StopsSearch path fault := by
  obtain ⟨outcomes, fs', hall, hbatch⟩ := exists_yields_runBatch h htree (proper_of_mem_map_parse)
  obtain ⟨s', hexec, -⟩ := hbatch.exec_eq
  rw [hexec]
  rcases plan_cases u.config s.files (paths.map Path.parse) [] with
    ⟨hnone, hpaths⟩ | ⟨fault, hsome, hstops⟩
  · rw [hnone]
    exact ⟨hpaths, _, yields_targets_of_end hnone, fun t ht => (standsFor_of_mem_plan ht).2, hall⟩
  · rw [hsome]
    exact hstops

theorem inOrder_sampleUpdater : Updater.sampleUpdater.InOrder where
  spells := ⟨.utf8, by decide, by decide, fun line _ => Charset.exists_encode_utf8 line⟩
  suffix := ⟨".bak", rfl, by decide, by decide⟩

theorem isTree_sampleFiles : Updater.sampleFiles.IsTree :=
  Updater.homeReached_sampleFiles.isTree (by decide +kernel) (by decide +kernel)

theorem runBatch_settled_missing_file :
    Updater.sampleUpdater.InOrder ∧ Updater.sampleFiles.IsTree ∧
      (exec (runBatch Updater.sampleUpdater (["missing", "A.java"].map Path.parse))
        ⟨Updater.sampleFiles, []⟩).1.toOption.map (·.map (·.status)) = some [.skipped, .updated] ∧
      match exec (runBatch Updater.sampleUpdater (["missing", "A.java"].map Path.parse))
        ⟨Updater.sampleFiles, []⟩ with
      | (.ok outcomes, _) =>
        (∀ path ∈ ["missing", "A.java"].map Path.parse,
          hasIgnoredPart Updater.sampleUpdater.config.ignoredNames path = false →
            ∀ fault, ¬ Updater.sampleFiles.StopsSearch path fault) ∧
        ∃ ts, Yields (targets Updater.sampleUpdater.config (["missing", "A.java"].map Path.parse))
            Updater.sampleFiles (.ok ts) Updater.sampleFiles ∧
          (∀ t ∈ ts, t.readable = Updater.sampleFiles.isReadable t.path) ∧
            List.Forall₂ Settled ts outcomes
      | (.error fault, _) =>
        ∃ path ∈ ["missing", "A.java"].map Path.parse,
          hasIgnoredPart Updater.sampleUpdater.config.ignoredNames path = false ∧
            Updater.sampleFiles.StopsSearch path fault :=
  ⟨inOrder_sampleUpdater, isTree_sampleFiles, by decide +kernel,
    runBatch_settled Updater.sampleUpdater inOrder_sampleUpdater _ ⟨Updater.sampleFiles, []⟩
      isTree_sampleFiles⟩

/-! ### Paths that cannot be examined -/

/-- A batch that is given such a path, among whatever others, comes to no outcomes. -/
theorem runBatch_of_stopsSearch (h : u.InOrder) {s : Session} (htree : s.files.IsTree)
    {paths : List String} (hpath : path ∈ paths.map Path.parse)
    (hwanted : hasIgnoredPart u.config.ignoredNames path = false) {fault : Fault}
    (hstops : s.files.StopsSearch path fault) :
    ∃ fault, (exec (runBatch u (paths.map Path.parse)) s).1 = .error fault := by
  obtain ⟨outcomes, fs', -, hbatch⟩ := exists_yields_runBatch h htree proper_of_mem_map_parse
  -- It may be another path that stops the search first, with another fault.
  rcases plan_cases u.config s.files (paths.map Path.parse) [] with ⟨-, hpaths⟩ | ⟨fault, hsome, -⟩
  · exact absurd hstops (hpaths _ hpath hwanted _)
  · rw [hsome] at hbatch
    obtain ⟨s', hexec, -⟩ := hbatch.exec_eq
    exact ⟨fault, by rw [hexec]; rfl⟩

/-- The search cannot get past a name that is longer than one that a node can have. -/
theorem stopsSearch_of_long (htree : fs.IsTree) {name : String}
    (hlong : FileSystem.nameLimit < name.utf8ByteSize) (hslash : '/' ∉ name.toList)
    (hnul : '\x00' ∉ name.toList) : ∃ fault, fs.StopsSearch (Path.parse name) fault := by
  have hempty : name ≠ "" := ne_of_long hlong (by decide)
  have hdot : name ≠ "." := ne_of_long hlong (by decide)
  have hdots : name ≠ ".." := ne_of_long hlong (by decide)
  rw [Path.parse_of_proper hempty hdot hslash]
  have hnul' : (⟨.relative, [name]⟩ : Path).hasNul = false := by simpa [Path.hasNul] using hnul
  have hsteps : (⟨.relative, [name]⟩ : Path).steps = [name] := by
    rw [Path.steps_of_names (List.cons_ne_nil _ _), List.flatMap_singleton,
      FileSystem.slashPieces_of_no_slash hslash]
  -- The name is too long for the directory, or the directory may not even be searched for it.
  obtain ⟨problem, hbars, hlocate⟩ : fs.Barred ⟨.relative, [name]⟩ := by
    rw [FileSystem.Barred, FileSystem.locate, hsteps, FileSystem.follow_eq_walk, FileSystem.walk]
    by_cases hsearch : fs.has Node.isSearchable fs.workingDirectory
    · exact ⟨.nameTooLong, Or.inl rfl, by simp [htree.home, hsearch, hempty, hdot, hdots, hlong]⟩
    · by_cases hroom : FileSystem.pathLimit ≤ (⟨.relative, [name]⟩ : Path).toString.utf8ByteSize
      · exact ⟨.nameTooLong, Or.inl rfl, if_pos hroom⟩
      · exact ⟨.permissionDenied, Or.inr rfl, by simp [htree.home, hsearch, hempty, hroom]⟩
  exact ⟨_, .barred hnul' hbars hlocate⟩

/-- A file in a directory that may not be searched, and another file beside the directory. -/
def closedFiles : FileSystem :=
  (Updater.sampleFiles.put ["work", "closed"] (.directory 0o644)).put ["work", "closed", "B.java"]
    (.file 0o644 [])

/-- A path that cannot be examined ends the batch, and the file after it is not updated: one that is
too long to be looked up, and one below a directory that may not be searched. -/
theorem runBatch_ended_early :
    (∃ fault, (exec (runBatch Updater.sampleUpdater ([letters 256, "A.java"].map Path.parse))
      ⟨Updater.sampleFiles, []⟩).1 = .error fault) ∧
    (exec (runBatch Updater.sampleUpdater (["closed/B.java", "A.java"].map Path.parse))
      ⟨closedFiles, []⟩).1 = .error (.file ⟨.permissionDenied, "closed/B.java", none⟩) := by
  have hlong : FileSystem.nameLimit < (letters 256).utf8ByteSize := by
    rw [utf8ByteSize_letters]
    decide
  have hslash : '/' ∉ (letters 256).toList := not_mem_letters (by decide) 256
  have hshort : ∀ name ∈ Updater.sampleUpdater.config.ignoredNames,
      name.utf8ByteSize ≤ FileSystem.nameLimit := by decide
  have hwanted : hasIgnoredPart Updater.sampleUpdater.config.ignoredNames
      (Path.parse (letters 256)) = false := by
    rw [Path.parse_of_proper (ne_of_long hlong (by decide)) (ne_of_long hlong (by decide)) hslash]
    simpa [hasIgnoredPart, Path.parts] using fun h => ne_of_long hlong (hshort _ h) rfl
  obtain ⟨fault, hstops⟩ := stopsSearch_of_long isTree_sampleFiles hlong hslash
    (not_mem_letters (by decide) 256)
  exact ⟨runBatch_of_stopsSearch inOrder_sampleUpdater isTree_sampleFiles List.mem_cons_self hwanted
    hstops, by decide +kernel⟩

end Letterhead
