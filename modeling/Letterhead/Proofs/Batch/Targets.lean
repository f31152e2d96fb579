import Letterhead.Proofs.Batch.Candidates
import Letterhead.Proofs.FileSystem.Below
import Letterhead.Proofs.FileSystem.Detour

/-!
# Exactly the targets

The targets of some paths can be said without going through the tree. A directory stands for the files
below it that are wanted, in the order of their names, and any other path for itself. Files are left
out that are below a directory which the user may not list and search, or have too long a path. Of the
paths that are the same from the root on, the first is the target. It is readable if it denotes a file
that the user may read. A path that the search cannot get past ends it instead.

## Main definitions

* `FileSystem.OpenWay` — directories that the user may list and search
* `Expands` — the paths that a given path stands for

## Main results

* `expands_candidatesOf` — what is searched for a path that can be looked up
* `planCandidates_eq_eraseDupsBy` — the first of the same paths is kept
* `targets_exactly` — the targets of some paths
* `targets_locked_or_long` — files that cannot be read, listed or looked up, and what is too long or deep
-/

namespace Letterhead

variable {config : Config} {fs : FileSystem} {path : Path} {paths : List Path}

/-! ### What a path stands for -/

/-- A path denotes a directory, if only through links. -/
def FileSystem.DenotesDirectory (fs : FileSystem) (path : Path) (place : Location) : Prop :=
  path.hasNul = false ∧ ∃ mode, fs.find .target path = .ok (place, .directory mode)

/-- The user may list and search all directories on the way that names lead from a place, the one at
the place among them. -/
def FileSystem.OpenWay (fs : FileSystem) (place : Location) (names : List String) : Prop :=
  ∀ count < names.length, fs.has Node.isListable (place ++ names.take count) ∧
    fs.has Node.isSearchable (place ++ names.take count)

/-- A path is that of a wanted file below a directory: one that names lead to through directories which
the user may list and search, with a wanted suffix and no ignored name, if the path is not too long. -/
def WantedBelow (config : Config) (fs : FileSystem) (root : Path) (place : Location) (p : Path) :
    Prop :=
  ∃ names mode bytes, p = root.below names ∧ fs.Below place names (.file mode bytes) ∧
    (fs.OpenWay place names ∧ p.toString.utf8ByteSize < FileSystem.pathLimit) ∧
      (∃ suffix ∈ config.suffixes, lowercase suffix = lowercase p.suffix) ∧
        ∀ name ∈ names, name ∉ config.ignoredNames

/-- A directory stands for the wanted files below it, in the order of their parts, and any other path
for itself. -/
inductive Expands (config : Config) (fs : FileSystem) (path : Path) : List Path → Prop
  | directory {place : Location} {found : List Path} (hplace : fs.DenotesDirectory path place)
      (hmem : ∀ p, p ∈ found ↔ WantedBelow config fs path place p)
      (hsorted : found.Pairwise fun p q => p.parts < q.parts) : Expands config fs path found
  | other (hother : ∀ place, ¬ fs.DenotesDirectory path place) : Expands config fs path [path]

theorem Path.parts_below (root : Path) (names : List String) :
    (root.below names).parts = root.parts ++ names := by
  rw [parts, parts, below]
  cases root.anchor <;> rfl

theorem Config.wantsSuffix_iff : config.wantsSuffix path = true ↔
    ∃ suffix ∈ config.suffixes, lowercase suffix = lowercase path.suffix := by
  rw [wantsSuffix, List.contains_iff_mem, List.mem_map]

/-- What is below a directory is listed, in a directory that may be searched, just if the whole way
to it is open. -/
theorem FileSystem.openWay_iff {place : Location} {names : List String} {node : Node}
    (hbelow : fs.Below place names node) : fs.OpenWay place names ↔
      names ∈ fs.entriesBelow place ∧ fs.has Node.isSearchable (place ++ names.dropLast) := by
  have hlength := List.length_pos_iff.mpr hbelow.ne_nil
  constructor
  · intro hopen
    refine ⟨FileSystem.mem_entriesBelow_iff.mpr ⟨⟨node, hbelow⟩, fun count hcount => ?_⟩, ?_⟩
    · exact (hopen count hcount).imp_right fun hsearch _ => hsearch
    · rw [List.dropLast_eq_take]
      exact (hopen (names.length - 1) (by omega)).2
  · intro ⟨hlisted, hlast⟩ count hcount
    exact ⟨((FileSystem.mem_entriesBelow_iff.mp hlisted).2 count hcount).1,
      FileSystem.searchable_of_mem_entriesBelow hlisted hlast count hcount⟩

/-- Of what is listed below a directory, the wanted files are taken. -/
theorem admits_iff (htree : fs.IsTree) (hreach : fs.InReach path) {place : Location}
    (hplace : fs.DenotesDirectory path place) {names : List String} :
    names ∈ fs.entriesBelow place ∧ config.admits path fs names = true ↔
      ∃ mode bytes, fs.Below place names (.file mode bytes) ∧ (fs.OpenWay place names ∧
          (path.below names).toString.utf8ByteSize < FileSystem.pathLimit) ∧
        (∃ suffix ∈ config.suffixes, lowercase suffix = lowercase (path.below names).suffix) ∧
          ∀ name ∈ names, name ∉ config.ignoredNames := by
  obtain ⟨hnul, _, hfind⟩ := hplace
  have hplain {node : Node} (hlisted : names ∈ fs.entriesBelow place)
      (hbelow : fs.Below place names node) :=
    htree.isPlainFile_below_iff hnul hfind hlisted
      (hreach.fits place (FileSystem.find_eq_ok_iff.mp hfind).1 names hlisted) hbelow
  have hnone : (!names.any config.ignoredNames.contains) = true ↔
      ∀ name ∈ names, name ∉ config.ignoredNames := by simp
  rw [Config.admits, Bool.and_eq_true, Bool.and_eq_true, Config.wantsSuffix_iff, hnone]
  constructor
  · rintro ⟨hlisted, ⟨hadmitted, hsuffix⟩, hnames⟩
    obtain ⟨⟨node, hbelow⟩, -⟩ := FileSystem.mem_entriesBelow_iff.mp hlisted
    obtain ⟨hfile, hsearch, hshort⟩ := (hplain hlisted hbelow).mp hadmitted
    have hopen := (FileSystem.openWay_iff hbelow).mpr ⟨hlisted, hsearch⟩
    cases node with
    | file mode bytes => exact ⟨mode, bytes, hbelow, ⟨hopen, hshort⟩, hsuffix, hnames⟩
    | directory | link => cases hfile
  · rintro ⟨mode, bytes, hbelow, ⟨hopen, hshort⟩, hsuffix, hnames⟩
    obtain ⟨hlisted, hsearch⟩ := (FileSystem.openWay_iff hbelow).mp hopen
    exact ⟨hlisted, ⟨(hplain hlisted hbelow).mpr ⟨rfl, hsearch, hshort⟩, hsuffix⟩, hnames⟩

theorem FileSystem.InReach.not_stopsSearch (h : fs.InReach path) (fault : Fault) :
    ¬ fs.StopsSearch path fault := by
  have hopens {place : Location} {mode : Nat} {names : List String}
      (hfind : fs.find .target path = .ok (place, .directory mode)) :=
    h.opens place (find_eq_ok_iff.mp hfind).1 names
  intro hstops
  cases hstops with
  | barred hnul hbars hlocate =>
    rcases h.looked with hnul' | hlooked
    · rw [hnul] at hnul'
      cases hnul'
    · exact hlooked ⟨_, hbars, hlocate⟩
  | tooDeep _ hfind hnames hdir hdeep => exact Nat.not_lt.mpr (hopens hfind hnames hdir).1 hdeep
  | tooLong _ hfind hnames hdir _ hlong =>
    exact Nat.not_lt.mpr hlong (hopens hfind hnames hdir).2

/-- What is searched for a given path is what it stands for. -/
theorem expands_candidatesOf (htree : fs.IsTree) (hreach : fs.InReach path)
    (hwanted : hasIgnoredPart config.ignoredNames path = false) :
    Expands config fs path (candidatesOf config fs path) := by
  rw [candidatesOf, hwanted, if_neg Bool.false_ne_true]
  cases hdir : fs.isDirectory path with
  | error problem =>
    obtain ⟨hnul, hlocate, hbars⟩ := FileSystem.isDirectory_eq_error_iff.mp hdir
    exact absurd (.barred hnul hbars hlocate) (hreach.not_stopsSearch _)
  | ok directory =>
    cases directory with
    | false =>
      refine .other fun place hplace => ?_
      obtain ⟨hnul, mode, hfind⟩ := hplace
      rw [FileSystem.isDirectory_eq_true_iff.mpr ⟨hnul, place, mode, hfind⟩] at hdir
      cases hdir
    | true =>
      obtain ⟨hnul, place, mode, hfind⟩ := FileSystem.isDirectory_eq_true_iff.mp hdir
      have hplace : fs.DenotesDirectory path place := ⟨hnul, mode, hfind⟩
      rcases entriesBelowPath_cases (FileSystem.find_eq_ok_iff.mp hfind).1 with
        ⟨hentries, -⟩ | ⟨names, hnames, hbelow, fault, hfault, -⟩
      · rw [hentries]
        refine .directory hplace (fun p => ?_) ?_
        · simp only [List.mem_filter, List.mem_map]
          constructor
          · rintro ⟨⟨names, hnames, rfl⟩, hadmitted⟩
            rw [admittedBelow_below] at hadmitted
            obtain ⟨mode, bytes, hrest⟩ := (admits_iff htree hreach hplace).mp ⟨hnames, hadmitted⟩
            exact ⟨names, mode, bytes, rfl, hrest⟩
          · rintro ⟨names, mode, bytes, rfl, hrest⟩
            obtain ⟨hnames, hadmitted⟩ := (admits_iff htree hreach hplace).mpr ⟨mode, bytes, hrest⟩
            exact ⟨⟨names, hnames, rfl⟩, (admittedBelow_below ..).trans hadmitted⟩
        · -- The parts of the directory come first in all of them.
          refine List.Pairwise.filter _ (List.pairwise_map.mpr ?_)
          refine (fs.pairwise_entriesBelow place).imp fun hlt => ?_
          rw [Path.parts_below, Path.parts_below]
          exact List.append_left_lt hlt
      · exact absurd (stopsSearch_of_openingFault? hnul hfind hnames hbelow hfault)
          (hreach.not_stopsSearch fault)

/-- Paths with an ignored part stand for nothing. -/
theorem flatMap_candidatesOf (config : Config) (fs : FileSystem) (paths : List Path) :
    paths.flatMap (candidatesOf config fs) =
      (paths.filter fun path => !hasIgnoredPart config.ignoredNames path).flatMap
        (candidatesOf config fs) := by
  induction paths with
  | nil => rfl
  | cons path rest ih =>
    rw [List.flatMap_cons, ih]
    cases hignored : hasIgnoredPart config.ignoredNames path with
    | true =>
      rw [List.filter_cons_of_neg (by simp [hignored]), candidatesOf, if_pos hignored,
        List.nil_append]
    | false => rw [List.filter_cons_of_pos (by simp [hignored]), List.flatMap_cons]

/-! ### The first of the same paths -/

/-- Of the candidates that have not been seen before, those are kept that are the first of the same. -/
theorem planCandidates_eq_eraseDupsBy (fs : FileSystem) (candidates : List Path) :
    ∀ seen, (planCandidates fs (fun _ => true) seen candidates).1 =
      ((candidates.filter fun p => !seen.contains (p.absolute fs.workingDirectory)).eraseDupsBy
        fun p q => p.absolute fs.workingDirectory == q.absolute fs.workingDirectory).map
          fun p => ⟨p, fs.isReadable p⟩ := by
  induction candidates with
  | nil => exact fun seen => rfl
  | cons path rest ih =>
    intro seen
    rw [planCandidates]
    by_cases hseen : path.absolute fs.workingDirectory ∈ seen
    · rw [if_neg (by simpa using hseen), List.filter_cons_of_neg (by simpa using hseen)]
      exact ih seen
    · rw [if_pos (by simpa using hseen), List.filter_cons_of_pos (by simpa using hseen),
        List.eraseDupsBy_cons, List.map_cons, List.filter_filter]
      refine congrArg _ ((ih (path.absolute fs.workingDirectory :: seen)).trans ?_)
      congr 3
      funext p
      rw [List.contains_cons, Bool.not_or]
      cases p.absolute fs.workingDirectory == path.absolute fs.workingDirectory <;> rfl

/-! ### The targets -/

theorem not_hasIgnoredPart_of_expands {found : List Path} (h : Expands config fs path found)
    (hwanted : hasIgnoredPart config.ignoredNames path = false) :
    ∀ p ∈ found, hasIgnoredPart config.ignoredNames p = false := by
  intro p hp
  cases h with
  | other _ => rwa [List.mem_singleton.mp hp]
  | directory _ hmem _ =>
    obtain ⟨names, mode, bytes, rfl, -, -, -, hnames⟩ := (hmem p).mp hp
    rw [hasIgnoredPart] at hwanted ⊢
    rw [Path.parts_below, List.any_append, hwanted, Bool.false_or, List.any_eq_false]
    simpa using hnames

/-- The targets of some paths that can be examined, with all below them: the paths that the given ones
stand for, each when it first comes. None has an ignored part, and those are readable that denote a
file which the user may read. -/
theorem targets_exactly (htree : fs.IsTree) (config : Config) (paths : List Path)
    (hreach : ∀ path ∈ paths, hasIgnoredPart config.ignoredNames path = false → fs.InReach path) :
    ∃ found ts,
      List.Forall₂ (Expands config fs)
        (paths.filter fun path => !hasIgnoredPart config.ignoredNames path) found ∧
      Yields (targets config paths) fs (.ok ts) fs ∧
      ts.map Target.path = found.flatten.eraseDupsBy
        (fun p q => p.absolute fs.workingDirectory == q.absolute fs.workingDirectory) ∧
      ∀ t ∈ ts, hasIgnoredPart config.ignoredNames t.path = false ∧
        (t.readable = true ↔ t.path.hasNul = false ∧ ∃ place mode bytes,
          fs.find .target t.path = .ok (place, .file mode bytes) ∧ mode.testBit 8 = true) := by
  have hwanted {path : Path}
      (h : path ∈ paths.filter fun path => !hasIgnoredPart config.ignoredNames path) :
      hasIgnoredPart config.ignoredNames path = false ∧ fs.InReach path := by
    obtain ⟨hpath, hkept⟩ := List.mem_filter.mp h
    have hkept : hasIgnoredPart config.ignoredNames path = false := by simpa using hkept
    exact ⟨hkept, hreach path hpath hkept⟩
  -- Nothing stops the search, so that the candidates of all the paths are looked at in turn.
  have hend : (plan config fs [] paths).2 = none := by
    rcases plan_cases config fs paths [] with ⟨hnone, -⟩ | ⟨fault, -, path, hpath, hkept, hstops⟩
    · exact hnone
    · exact absurd hstops ((hreach path hpath hkept).not_stopsSearch fault)
  have hplan := plan_eq_planCandidates config fs paths [] hend
  refine ⟨(paths.filter fun path => !hasIgnoredPart config.ignoredNames path).map
    (candidatesOf config fs), _, ?_, yields_targets_of_end hend, ?_, fun t ht => ?_⟩
  · refine List.forall₂_map_right_iff.mpr (List.forall₂_same.mpr fun path hpath => ?_)
    exact expands_candidatesOf htree (hwanted hpath).2 (hwanted hpath).1
  · rw [hplan, planCandidates_eq_eraseDupsBy, flatMap_candidatesOf, List.flatMap_def, List.map_map,
      List.filter_eq_self.mpr (by simp)]
    exact List.map_id _
  · rw [hplan, flatMap_candidatesOf] at ht
    obtain ⟨hmem, hreadable⟩ := mem_planCandidates _ ht
    obtain ⟨path, hpath, hcandidate⟩ := List.mem_flatMap.mp hmem
    obtain ⟨hkept, hpathReach⟩ := hwanted hpath
    refine ⟨not_hasIgnoredPart_of_expands (expands_candidatesOf htree hpathReach hkept) hkept t.path
      hcandidate, ?_⟩
    rw [hreadable, FileSystem.isReadable_eq_true_iff]
    refine and_congr_right fun _ => exists_congr fun place => ⟨?_, ?_⟩
    · rintro ⟨node, hfind, hnode⟩
      cases node with
      | file mode bytes => exact ⟨mode, bytes, hfind, hnode⟩
      | directory | link => cases hnode
    · rintro ⟨mode, bytes, hfind, hmode⟩
      exact ⟨_, hfind, hmode⟩

/-- A file in a directory beside another one, and a link to the directory. -/
def shelfFiles : FileSystem :=
  ((Updater.sampleFiles.put ["work", "src"] (.directory FileSystem.newDirectoryMode)).put
    ["work", "src", "B.java"] (.file 0o644 [])).put ["work", "L"] (.link "src")

theorem isTree_shelfFiles : shelfFiles.IsTree := by
  have hhome : shelfFiles.HomeReached :=
    ((Updater.homeReached_sampleFiles.put (by decide +kernel) _).put (by decide +kernel) _).put
      (by decide +kernel) _
  exact hhome.isTree (by decide +kernel) (by decide +kernel)

theorem targets_exactly_shelf :
    shelfFiles.IsTree ∧
    (∀ path ∈ [⟨.relative, []⟩, ⟨.relative, ["L"]⟩],
      hasIgnoredPart ({} : Config).ignoredNames path = false → shelfFiles.InReach path) ∧
    ∃ found ts,
      List.Forall₂ (Expands {} shelfFiles)
        ([⟨.relative, []⟩, ⟨.relative, ["L"]⟩].filter fun path =>
          !hasIgnoredPart ({} : Config).ignoredNames path) found ∧
      Yields (targets {} [⟨.relative, []⟩, ⟨.relative, ["L"]⟩]) shelfFiles (.ok ts) shelfFiles ∧
      ts.map Target.path = found.flatten.eraseDupsBy
        (fun p q => p.absolute shelfFiles.workingDirectory == q.absolute shelfFiles.workingDirectory) ∧
      ∀ t ∈ ts, hasIgnoredPart ({} : Config).ignoredNames t.path = false ∧
        (t.readable = true ↔ t.path.hasNul = false ∧ ∃ place mode bytes,
          shelfFiles.find .target t.path = .ok (place, .file mode bytes) ∧
            mode.testBit 8 = true) := by
  have hreach : ∀ path ∈ [⟨.relative, []⟩, ⟨.relative, ["L"]⟩],
      hasIgnoredPart ({} : Config).ignoredNames path = false → shelfFiles.InReach path := by
    intro path hpath _
    rcases List.mem_pair.mp hpath with rfl | rfl
    · have hplace : shelfFiles.locate .target ⟨.relative, []⟩ = .ok ["work"] := by decide +kernel
      exact .of_locate hplace (by decide +kernel) (by decide +kernel)
    · have hplace : shelfFiles.locate .target ⟨.relative, ["L"]⟩ = .ok ["work", "src"] := by
        decide +kernel
      exact .of_locate hplace (by decide +kernel) (by decide +kernel)
  exact ⟨isTree_shelfFiles, hreach, targets_exactly isTree_shelfFiles {} _ hreach⟩

/-- A file that the user may not read, one in a directory that he may not list, and one in a directory
that he may not search. -/
def lockedFiles : FileSystem :=
  (((((FileSystem.empty ["work"]).put ["work", "A.java"] (.file 0 [])).put ["work", "src"]
    (.directory 0o311)).put ["work", "src", "B.java"] (.file 0o644 [])).put ["work", "lib"]
      (.directory 0o644)).put ["work", "lib", "C.java"] (.file 0o644 [])

/-- So many directories in each other, below the working directory. -/
def nestedFiles : Nat → FileSystem
  | 0 => FileSystem.empty ["work"]
  | depth + 1 =>
    (nestedFiles depth).put ("work" :: List.replicate (depth + 1) "d")
      (.directory FileSystem.newDirectoryMode)

theorem node?_nestedFiles {depth count : Nat} (h : count ≤ depth) :
    (nestedFiles depth).node? ("work" :: List.replicate count "d") =
      some (.directory FileSystem.newDirectoryMode) := by
  induction depth with
  | zero =>
    obtain rfl := Nat.le_zero.mp h
    decide +kernel
  | succ depth ih =>
    -- The innermost directory is new, and those above it are as they were.
    rw [nestedFiles, FileSystem.node?_put _ _ (List.cons_ne_nil _ _)]
    split
    · rfl
    · rename_i hne
      refine ih (Nat.le_of_lt_succ (Nat.lt_of_le_of_ne h ?_))
      rintro rfl
      exact hne rfl

theorem workingDirectory_nestedFiles (depth : Nat) :
    (nestedFiles depth).workingDirectory = ["work"] := by
  induction depth with
  | zero => rfl
  | succ depth ih => exact ih

/-- One directory more in each other than the search gets through. -/
def deepFiles : FileSystem := nestedFiles (nestingLimit + 1)

/-- The names that lead to the innermost of them. -/
def deepNames : List String := List.replicate (nestingLimit + 1) "d"

theorem node?_deepFiles (count : Nat) : deepFiles.node? (["work"] ++ deepNames.take count) =
    some (.directory FileSystem.newDirectoryMode) := by
  rw [deepNames, List.take_replicate]
  exact node?_nestedFiles (Nat.min_le_right ..)

theorem has_deepFiles (count : Nat) (sort : Node → Bool) :
    deepFiles.has sort (["work"] ++ deepNames.take count) =
      sort (.directory FileSystem.newDirectoryMode) :=
  FileSystem.has_of_node? (node?_deepFiles count) sort

theorem stopsSearch_deepFiles : deepFiles.StopsSearch ⟨.relative, []⟩ .nestedTooDeep := by
  have hlast := node?_deepFiles deepNames.length
  rw [List.take_length] at hlast
  have hhere (sort : Node → Bool) : deepFiles.has sort ["work"] =
      sort (.directory FileSystem.newDirectoryMode) := has_deepFiles 0 sort
  have hfind : deepFiles.find .target ⟨.relative, []⟩ =
      .ok (["work"], .directory FileSystem.newDirectoryMode) := by
    have hhome : deepFiles.workingDirectory = ["work"] := workingDirectory_nestedFiles _
    have hdot : (⟨.relative, []⟩ : Path).steps = ["."] := rfl
    refine FileSystem.find_eq_ok_iff.mpr ⟨?_, node?_deepFiles 0⟩
    rw [FileSystem.locate_relative rfl (by decide), hhome, hdot,
      FileSystem.walk_stay (hhere _) (Or.inr ⟨rfl, hhere _⟩), FileSystem.walk]
  have hlisted : deepNames ∈ deepFiles.entriesBelow ["work"] :=
    FileSystem.mem_entriesBelow_iff.mpr
      ⟨⟨_, List.cons_ne_nil _ _, fun count _ => has_deepFiles count _, hlast⟩,
        fun count _ => ⟨has_deepFiles count _, fun _ => has_deepFiles count _⟩⟩
  refine .tooDeep rfl hfind hlisted (FileSystem.has_of_node? hlast _) ?_
  rw [deepNames, List.length_replicate]
  exact Nat.lt_succ_self nestingLimit

/-- At a path that is too long the search ends. -/
theorem plan_of_long {seen rest : List Path}
    (hwanted : hasIgnoredPart config.ignoredNames path = false) (hnul : path.hasNul = false)
    (hlong : FileSystem.pathLimit ≤ path.toString.utf8ByteSize) :
    plan config fs seen (path :: rest) =
      ([], some (.file ⟨.nameTooLong, path.toString, none⟩)) := by
  have hlocate : fs.locate .target path = .error .nameTooLong := if_pos hlong
  have hdir : fs.isDirectory path = .error .nameTooLong :=
    FileSystem.isDirectory_eq_error_iff.mpr ⟨hnul, hlocate, Or.inl rfl⟩
  rw [plan, planPath, hwanted, if_neg Bool.false_ne_true, hdir]

/-- A file that may not be read is a target that is not readable. A file is left out that can be read,
but is in a directory that may not be listed. At one in a directory that may not be searched the search
ends, and so it does at a path of short names that is too long as a whole, and at directories that are
nested too deep. -/
theorem targets_locked_or_long :
    (Yields (targets {} [⟨.relative, ["A.java"]⟩]) lockedFiles
        (.ok [⟨⟨.relative, ["A.java"]⟩, false⟩]) lockedFiles ∧
      lockedFiles.find .target ⟨.relative, ["A.java"]⟩ = .ok (["work", "A.java"], .file 0 [])) ∧
    (Yields (targets {} [⟨.relative, ["src"]⟩]) lockedFiles (.ok []) lockedFiles ∧
      lockedFiles.find .entry ⟨.relative, ["src", "B.java"]⟩ =
        .ok (["work", "src", "B.java"], .file 0o644 [])) ∧
    Yields (targets {} [⟨.relative, ["lib", "C.java"]⟩]) lockedFiles
        (.error (.file ⟨.permissionDenied, "lib/C.java", none⟩)) lockedFiles ∧
    Yields (targets {} [roundabout 900 "A.java"]) lockedFiles
        (.error (.file ⟨.nameTooLong, (roundabout 900 "A.java").toString, none⟩)) lockedFiles ∧
      (∀ name ∈ (roundabout 900 "A.java").names, name.utf8ByteSize ≤ FileSystem.nameLimit) ∧
    ∃ fault, Yields (targets {} [⟨.relative, []⟩]) deepFiles (.error fault) deepFiles := by
  have hfound : plan {} lockedFiles [] [⟨.relative, ["A.java"]⟩] =
      ([⟨⟨.relative, ["A.java"]⟩, false⟩], none) := by decide +kernel
  have hunlisted : plan {} lockedFiles [] [⟨.relative, ["src"]⟩] = ([], none) := by decide +kernel
  have hlocked : plan {} lockedFiles [] [⟨.relative, ["lib", "C.java"]⟩] =
      ([], some (.file ⟨.permissionDenied, "lib/C.java", none⟩)) := by decide +kernel
  have hlong : plan {} lockedFiles [] [roundabout 900 "A.java"] =
      ([], some (.file ⟨.nameTooLong, (roundabout 900 "A.java").toString, none⟩)) := by
    refine plan_of_long ?_ (by rw [hasNul_roundabout]; decide) ?_
    · rw [hasIgnoredPart, List.any_eq_false]
      intro name hname
      rcases eq_of_mem_roundabout hname with rfl | rfl | rfl <;> decide
    · rw [utf8ByteSize_roundabout]
      decide
  have hdeep : ∃ fault, Yields (targets {} [⟨.relative, []⟩]) deepFiles (.error fault) deepFiles := by
    have hyields := yields_targets {} deepFiles [⟨.relative, []⟩]
    rcases plan_cases {} deepFiles [⟨.relative, []⟩] [] with ⟨-, hpaths⟩ | ⟨fault, hsome, -⟩
    · exact absurd stopsSearch_deepFiles (hpaths _ List.mem_cons_self rfl _)
    · rw [hsome] at hyields
      exact ⟨fault, hyields⟩
  refine ⟨⟨yields_targets_of_plan hfound, by decide +kernel⟩,
    ⟨yields_targets_of_plan hunlisted, by decide +kernel⟩, yields_targets_of_plan hlocked,
    yields_targets_of_plan hlong, fun name hname => ?_, hdeep⟩
  rcases eq_of_mem_roundabout hname with rfl | rfl | rfl <;> decide

end Letterhead
