import Mathlib.Data.List.Pairwise
import Letterhead.Proofs.Batch.Order
import Letterhead.Proofs.Batch.Targets

/-!
# One file by two paths

Targets are told apart by their paths from the root on, double dots and links included. So a file is
visited twice if it is given by two such paths: by its own name and by a link to it, or with a way into
a directory and back. The targets denote different files just if the given paths never stand for two
paths of one file that differ from the root on. A path is straight if it goes through no links and no
double dots, and straight paths never do.

## Main definitions

* `FileSystem.SameFile` — two paths denote one file
* `FileSystem.Straight` — a path that is the location of what it denotes

## Main results

* `straight_of_mem_candidatesOf` — what a straight path stands for is straight
* `targets_distinct_iff` — when no file is a target twice
* `targets_link_twice` — a file that is a target twice
-/

namespace Letterhead

variable {config : Config} {fs : FileSystem} {path p q : Path} {place : Location} {t t' : Target}

namespace FileSystem

/-- A path denotes something that is there, at a place. -/
def Denotes (fs : FileSystem) (p : Path) (place : Location) : Prop :=
  p.hasNul = false ∧ ∃ node, fs.find .target p = .ok (place, node)

/-- Two paths denote one and the same node. -/
def SameFile (fs : FileSystem) (p q : Path) : Prop := ∃ place, fs.Denotes p place ∧ fs.Denotes q place

theorem SameFile.symm (h : fs.SameFile p q) : fs.SameFile q p := by
  obtain ⟨place, hp, hq⟩ := h
  exact ⟨place, hq, hp⟩

/-- A path that leads, by its names from the root on, straight to the location of what it denotes. -/
def Straight (fs : FileSystem) (p : Path) : Prop :=
  ∀ place, fs.Denotes p place → p.absolute fs.workingDirectory = ⟨.root, place⟩

theorem Straight.of_find {node : Node} (h : fs.find .target p = .ok (place, node))
    (hplace : p.absolute fs.workingDirectory = ⟨.root, place⟩) : fs.Straight p := by
  rintro place' ⟨-, node', h'⟩
  rw [h] at h'
  cases h'
  exact hplace

/-- Targets that are the same from the root on denote the same. -/
theorem Found.denotes (htree : fs.IsTree) (h : fs.Found t) (h' : fs.Found t')
    (hkey : t.key fs = t'.key fs) (hdenotes : fs.Denotes t.path place) :
    fs.Denotes t'.path place := by
  obtain ⟨hnul, node, hfind⟩ := hdenotes
  rcases h.hasNul_or_locate_eq htree h' hkey with ⟨hnul', -⟩ | ⟨-, hnul', -, hlocate⟩
  · rw [hnul] at hnul'
    cases hnul'
  · refine ⟨hnul', node, ?_⟩
    rw [find, hlocate .target (by decide)]
    exact hfind

end FileSystem

theorem Path.absolute_below (root : Path) (names : List String) (home : Location) :
    (root.below names).absolute home = (root.absolute home).below names := by
  obtain ⟨anchor, given⟩ := root
  cases anchor <;> simp [absolute, below]

/-! ### Straight paths -/

/-- What a straight path stands for is straight: from a directory on, no link is followed. -/
theorem straight_of_mem_candidatesOf (htree : fs.IsTree) (hpath : fs.Straight path)
    (h : p ∈ candidatesOf config fs path) : fs.Straight p := by
  rcases candidatesOf_cases h with
    ⟨-, rfl⟩ | ⟨place, mode, names, hnul, hroot, hlisted, rfl, hplain⟩
  · exact hpath
  · rintro place' ⟨hnul', node', hfind⟩
    obtain ⟨⟨node, hbelow⟩, -⟩ := FileSystem.mem_entriesBelow_iff.mp hlisted
    have hentry := htree.find_below_of_locate hroot hbelow (FileSystem.find_eq_ok_iff.mp hfind).1
    have hlink : node.isLink = false := by
      obtain ⟨hlink, -⟩ := FileSystem.isPlainFile_eq_true_iff.mp hplain
      exact Except.ok.inj ((FileSystem.isLink_of_find hnul' hentry).symm.trans hlink)
    rw [FileSystem.find_target_of_entry hentry hlink] at hfind
    cases hfind
    rw [Path.absolute_below, hpath place ⟨hnul, _, hroot⟩]
    rfl

/-! ### Targets -/

section Search

variable {paths : List Path} (htree : fs.IsTree) (hpaths : ∀ path ∈ paths, path.Proper)
  (hend : (plan config fs [] paths).2 = none)

include htree hpaths hend

/-- Every path that the given ones stand for is a target, or one that is the same from the root on. -/
theorem exists_target_of_mem_candidatesOf (hp : p ∈ paths.flatMap (candidatesOf config fs)) :
    ∃ t ∈ (plan config fs [] paths).1, t.key fs = p.absolute fs.workingDirectory ∧
      ∀ place, fs.Denotes p place → fs.Denotes t.path place := by
  have hkeys := (nodup_key_planCandidates fs (paths.flatMap (candidatesOf config fs)) []).2
  obtain ⟨t, ht, hkey⟩ := List.mem_map.mp
    ((hkeys _).mpr ⟨List.not_mem_nil, List.mem_map_of_mem hp⟩)
  rw [← plan_eq_planCandidates _ _ _ _ hend] at ht
  refine ⟨t, ht, hkey, fun place hplace => ?_⟩
  obtain ⟨path, hpath, hcandidate⟩ := List.mem_flatMap.mp hp
  have hfound : fs.Found ⟨p, fs.isReadable p⟩ :=
    found_of_mem_candidatesOf htree (hpaths path hpath) rfl hcandidate
  exact hfound.denotes htree (found_of_mem_plan htree hpaths hend ht) hkey.symm hplace

/-- The targets denote different files, just if paths of one file are the same from the root on. -/
theorem pairwise_plan_iff :
    (plan config fs [] paths).1.Pairwise (fun t t' => ¬ fs.SameFile t.path t'.path) ↔
      ∀ p ∈ paths.flatMap (candidatesOf config fs), ∀ q ∈ paths.flatMap (candidatesOf config fs),
        fs.SameFile p q → p.absolute fs.workingDirectory = q.absolute fs.workingDirectory := by
  have hnodup := nodup_key_plan hend
  constructor
  · rintro hdistinct p hp q hq ⟨place, hpplace, hqplace⟩
    obtain ⟨t, ht, hkey, hdenotes⟩ := exists_target_of_mem_candidatesOf htree hpaths hend hp
    obtain ⟨t', ht', hkey', hdenotes'⟩ := exists_target_of_mem_candidatesOf htree hpaths hend hq
    by_contra hne
    have hsymm : Std.Symm fun t t' : Target => ¬ fs.SameFile t.path t'.path :=
      ⟨fun t t' h hfile => h hfile.symm⟩
    have hother : t ≠ t' := by
      rintro rfl
      exact hne (hkey.symm.trans hkey')
    exact hdistinct.forall ht ht' hother
      ⟨place, hdenotes place hpplace, hdenotes' place hqplace⟩
  · intro hsame
    refine (List.pairwise_map.mp hnodup).imp_of_mem fun {t t'} ht ht' hkeys hfile => hkeys ?_
    have hmem {t : Target} (ht : t ∈ (plan config fs [] paths).1) :
        t.path ∈ paths.flatMap (candidatesOf config fs) := by
      rw [plan_eq_planCandidates _ _ _ _ hend] at ht
      exact (mem_planCandidates _ ht).1
    exact hsame _ (hmem ht) _ (hmem ht') hfile

end Search

/-- The targets of some paths denote different files, just if paths of one file that the given ones
stand for are always the same from the root on. That is so if the given paths are straight. -/
theorem targets_distinct_iff (htree : fs.IsTree) (config : Config) (paths : List String)
    {ts : List Target} (hfound : Yields (targets config (paths.map Path.parse)) fs (.ok ts) fs) :
    (ts.Pairwise (fun t t' => ¬ fs.SameFile t.path t'.path) ↔
      ∀ p ∈ (paths.map Path.parse).flatMap (candidatesOf config fs),
        ∀ q ∈ (paths.map Path.parse).flatMap (candidatesOf config fs), fs.SameFile p q →
          p.absolute fs.workingDirectory = q.absolute fs.workingDirectory) ∧
    ((∀ path ∈ paths.map Path.parse, fs.Straight path) →
      ts.Pairwise fun t t' => ¬ fs.SameFile t.path t'.path) := by
  obtain ⟨hend, hts⟩ := endWith_eq_ok_iff.mp
    ((yields_targets config fs (paths.map Path.parse)).unique hfound).1
  obtain rfl := Except.ok.inj hts
  have hiff := pairwise_plan_iff htree proper_of_mem_map_parse hend
  refine ⟨hiff, fun hstraight => hiff.mpr fun p hp q hq ⟨place, hpplace, hqplace⟩ => ?_⟩
  obtain ⟨path, hpath, hp⟩ := List.mem_flatMap.mp hp
  obtain ⟨path', hpath', hq⟩ := List.mem_flatMap.mp hq
  rw [straight_of_mem_candidatesOf htree (hstraight path hpath) hp place hpplace,
    straight_of_mem_candidatesOf htree (hstraight path' hpath') hq place hqplace]

/-- The targets in `recordingFiles`, the second one first. -/
def twoTargets : List Target := [⟨⟨.relative, ["B.java"]⟩, true⟩, ⟨⟨.relative, ["A.java"]⟩, true⟩]

/-- A file and the directory that it is in: the file is a target once, and so is the one beside it. -/
theorem targets_distinct_two :
    recordingFiles.IsTree ∧
    Yields (targets {} (["B.java", "."].map Path.parse)) recordingFiles (.ok twoTargets) recordingFiles ∧
    (∀ path ∈ ["B.java", "."].map Path.parse, recordingFiles.Straight path) ∧
    (∀ p ∈ (["B.java", "."].map Path.parse).flatMap (candidatesOf {} recordingFiles),
      ∀ q ∈ (["B.java", "."].map Path.parse).flatMap (candidatesOf {} recordingFiles),
        recordingFiles.SameFile p q →
          p.absolute recordingFiles.workingDirectory = q.absolute recordingFiles.workingDirectory) ∧
    twoTargets.Pairwise fun t t' => ¬ recordingFiles.SameFile t.path t'.path := by
  have hplan : plan {} recordingFiles [] (["B.java", "."].map Path.parse) = (twoTargets, none) := by
    decide +kernel
  have hfound : Yields (targets {} (["B.java", "."].map Path.parse)) recordingFiles
      (.ok twoTargets) recordingFiles := yields_targets_of_plan hplan
  have hstraight : ∀ path ∈ ["B.java", "."].map Path.parse, recordingFiles.Straight path := by
    intro path hpath
    rcases List.mem_pair.mp hpath with rfl | rfl
    · have hfind : recordingFiles.find .target (Path.parse "B.java") =
          .ok (["work", "B.java"], .file 0o644 "package b;\n".toUTF8.toList) := by decide +kernel
      exact .of_find hfind (by decide)
    · have hfind : recordingFiles.find .target (Path.parse ".") =
          .ok (["work"], .directory FileSystem.newDirectoryMode) := by decide +kernel
      exact .of_find hfind (by decide)
  obtain ⟨hiff, hdistinct⟩ := targets_distinct_iff isTree_recordingFiles {} _ hfound
  exact ⟨isTree_recordingFiles, hfound, hstraight, hiff.mp (hdistinct hstraight), hdistinct hstraight⟩

/-- A file, and a link to it beside it. -/
def aliasedFiles : FileSystem := Updater.sampleFiles.put ["work", "L.java"] (.link "A.java")

/-- A file that is given by its name and by the name of a link to it is a target twice. -/
theorem targets_link_twice :
    Yields (targets {} (["A.java", "L.java"].map Path.parse)) aliasedFiles
      (.ok [⟨⟨.relative, ["A.java"]⟩, true⟩, ⟨⟨.relative, ["L.java"]⟩, true⟩]) aliasedFiles ∧
    aliasedFiles.SameFile ⟨.relative, ["A.java"]⟩ ⟨.relative, ["L.java"]⟩ := by
  refine ⟨?_, ["work", "A.java"], ⟨by decide, ?_⟩, ⟨by decide, ?_⟩⟩
  · have hplan : plan {} aliasedFiles [] (["A.java", "L.java"].map Path.parse) =
        ([⟨⟨.relative, ["A.java"]⟩, true⟩, ⟨⟨.relative, ["L.java"]⟩, true⟩], none) := by
      decide +kernel
    exact yields_targets_of_plan hplan
  · exact ⟨.file 0o640 "package a;\n".toUTF8.toList, by decide +kernel⟩
  · exact ⟨.file 0o640 "package a;\n".toUTF8.toList, by decide +kernel⟩

end Letterhead
