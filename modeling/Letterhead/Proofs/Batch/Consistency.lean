import Mathlib.Data.List.Forall2
import Letterhead.Batch
import Letterhead.Proofs.Batch.Plan
import Letterhead.Proofs.Update.Transaction

/-!
# What a batch leaves behind

A batch that writes keeps the shape of the file system and touches no file but those its targets lead
to, whether it comes to an end or stops on a fault. If it comes to an end, and no two targets lead to
the same file, then its outcomes say which files have changed.

## Main definitions

* `Processed` — what one target comes to
* `Apart` — two targets lead to different files

## Main results

* `processTarget_cases` — every target is processed, whatever happens to it
* `runBatch_consistent` — what a batch does to the files, and what it says it did
-/

namespace Letterhead

open FileSystem (SameShape)

variable {u : Updater} {fs fs' : FileSystem} {t : Target} {r : Except Fault Outcome}

/-! ### One target -/

/-- What a target comes to: the files are as before and no update is reported, or the one file that
the target leads to is rewritten, and the report says whether its bytes have changed. -/
inductive Processed (t : Target) (fs : FileSystem) : Except Fault Outcome → FileSystem → Prop
  | untouched {r : Except Fault Outcome} (hr : ∀ o, r = .ok o → o.status ≠ .updated) :
      Processed t fs r fs
  | rewritten {place : Location} {mode : Nat} {old new : List UInt8} {o : Outcome}
      (hfound : fs.find .target t.path = .ok (place, .file mode old))
      (hstatus : o.status = .updated ↔ new ≠ old) :
      Processed t fs (.ok o) (fs.put place (.file mode new))

theorem yields_noteDiagnostics (ds : List Diagnostic) (fs : FileSystem) :
    Yields (noteDiagnostics ds) fs (.ok ⟨⟩) fs := by
  induction ds with
  | nil => exact .pure
  | cons d rest ih => exact Yields.note.bind ih

theorem yields_noteOutcome (config : Config) (name : String) (o : Outcome) (fs : FileSystem) :
    Yields (noteOutcome config name o) fs (.ok ⟨⟩) fs := by
  refine (yields_noteDiagnostics o.diagnostics fs).bind ?_
  split
  · exact .note
  · exact .pure

/-- What becomes of a fault that was met at a file: an outcome, if it is the affair of that file. -/
def failure (name : String) (fault : Fault) : Except Fault Outcome :=
  if fault.concernsOneFile then .ok { path := name, status := .failed, error := fault.message }
  else .error fault

theorem yields_failedOutcome (name : String) (fault : Fault) (fs : FileSystem) :
    Yields (failedOutcome name fault) fs (failure name fault) fs := by
  rw [failedOutcome, failure]
  split
  · exact Yields.note.bind .pure
  · exact .throw

theorem status_of_failure {name : String} {fault : Fault} {o : Outcome}
    (h : failure name fault = .ok o) : o.status = .failed := by
  rw [failure] at h
  split at h <;> cases h
  rfl

/-- What a target comes to when its file comes to `r`. -/
def settle (name : String) : Except Fault Outcome → Except Fault Outcome
  | .ok o => .ok o
  | .error fault => failure name fault

/-- The outcome for a file that cannot be read. -/
def skippedOutcome (t : Target) : Outcome :=
  { path := t.path.toString, status := .skipped, error := "unreadable" }

theorem yields_processTarget (hreadable : t.readable = true)
    (h : Yields (processFile u t.path) fs r fs') :
    Yields (processTarget u t) fs (settle t.path.toString r) fs' := by
  rw [processTarget, if_pos hreadable]
  cases r with
  | ok o => exact Yields.tryCatch (h.bind ((yields_noteOutcome u.config _ o fs').bind .pure))
  | error fault => exact Yields.tryCatch_error h.bind_error (yields_failedOutcome _ fault fs')

theorem yields_processTarget_unreadable (u : Updater) (hreadable : t.readable = false)
    (fs : FileSystem) : Yields (processTarget u t) fs (.ok (skippedOutcome t)) fs := by
  rw [processTarget, if_neg (by simp [hreadable])]
  exact Yields.note.bind .pure

/-- Every target comes to something. A fault that concerns one file becomes an outcome. -/
theorem processTarget_cases (hcheck : u.config.checkOnly = false) (hhome : fs.HomeReached)
    (t : Target) : ∃ r fs', Yields (processTarget u t) fs r fs' ∧ Processed t fs r fs' := by
  cases hreadable : t.readable with
  | false =>
    refine ⟨_, fs, yields_processTarget_unreadable u hreadable fs, .untouched fun o ho => ?_⟩
    cases ho
    exact nofun
  | true =>
    have hfile : processFile u t.path = u.update t.path := by simp [processFile, hcheck]
    rcases u.update_cases hhome t.path with
      ⟨fault, h⟩ | ⟨fs', o, charset, place, mode, old, new, h, hrewrites⟩
    · rw [← hfile] at h
      refine ⟨_, fs, yields_processTarget hreadable h, .untouched fun o ho => ?_⟩
      rw [status_of_failure ho]
      exact nofun
    · rw [← hfile] at h
      refine ⟨.ok o, fs', yields_processTarget hreadable h, ?_⟩
      rw [hrewrites.files]
      refine .rewritten hrewrites.found ?_
      rw [hrewrites.status]
      split <;> simp [*]

namespace Processed

variable (h : Processed t fs r fs')

include h

theorem sameShape : SameShape fs fs' := by
  cases h with
  | untouched => exact SameShape.refl fs
  | rewritten hfound => exact .put (FileSystem.find_eq_ok_iff.mp hfound).2 _

/-- Where the target does not lead, nothing changes. -/
theorem node?_eq {other : Location} (hother : fs.locate .target t.path ≠ .ok other) :
    fs'.node? other = fs.node? other := by
  cases h with
  | untouched => rfl
  | @rewritten place mode old new o hfound hstatus =>
    obtain ⟨hplace, hnode⟩ := FileSystem.find_eq_ok_iff.mp hfound
    have hne : place ≠ other := by
      rintro rfl
      exact hother hplace
    have hroot : place ≠ [] := by
      rintro rfl
      cases hnode
    rw [FileSystem.node?_put _ _ hroot, if_neg hne]

/-- An update is reported exactly when what the target leads to has changed. -/
theorem updated_iff {o : Outcome} (hr : r = .ok o) :
    o.status = .updated ↔ ∃ place, fs.locate .target t.path = .ok place ∧
      fs'.node? place ≠ fs.node? place := by
  cases h with
  | untouched hno =>
    constructor
    · exact fun hupdated => absurd hupdated (hno o hr)
    · rintro ⟨place, -, hchanged⟩
      exact absurd rfl hchanged
  | @rewritten place mode old new _ hfound hstatus =>
    cases hr
    obtain ⟨hplace, hnode⟩ := FileSystem.find_eq_ok_iff.mp hfound
    have hroot : place ≠ [] := by
      rintro rfl
      cases hnode
    have hput : (fs.put place (.file mode new)).node? place = some (.file mode new) := by
      rw [FileSystem.node?_put _ _ hroot, if_pos rfl]
    rw [hstatus]
    constructor
    · intro hne
      refine ⟨place, hplace, ?_⟩
      rw [hput, hnode]
      simpa using hne
    · rintro ⟨other, hother, hchanged⟩ rfl
      obtain rfl : place = other := Except.ok.inj (hplace.symm.trans hother)
      exact hchanged (hput.trans hnode.symm)

end Processed

theorem keepsShape_processTarget (hcheck : u.config.checkOnly = false) (hhome : fs.HomeReached) :
    KeepsShape fs (processTarget u) := by
  intro fs₁ hshape t
  obtain ⟨r, fs₂, hyields, hprocessed⟩ := processTarget_cases hcheck (hshape.homeReached hhome) t
  exact ⟨r, fs₂, hyields, hprocessed.sameShape⟩

/-! ### All targets -/

/-- The targets lead to different places, if they both lead anywhere. -/
def Apart (fs : FileSystem) (t t' : Target) : Prop :=
  ∀ place, fs.locate .target t.path = .ok place → fs.locate .target t'.path ≠ .ok place

theorem Apart.of_ne {t' : Target}
    (h : fs.locate .target t.path ≠ fs.locate .target t'.path) : Apart fs t t' :=
  fun _ hplace hplace' => h (hplace.trans hplace'.symm)

/-- Targets that lead to different places do so in every file system of the same shape. -/
theorem FileSystem.SameShape.pairwise_apart (h : SameShape fs fs') {ts : List Target}
    (hapart : ts.Pairwise (Apart fs)) : ts.Pairwise (Apart fs') := by
  refine hapart.imp fun hab place => ?_
  rw [h.locate, h.locate]
  exact hab place

/-- The outcome for a target says whether what it leads to has changed. -/
def Truthful (fs fs' : FileSystem) (t : Target) (o : Outcome) : Prop :=
  o.status = .updated ↔ ∃ place, fs.locate .target t.path = .ok place ∧
    fs'.node? place ≠ fs.node? place

/-- What a run through some targets leaves behind, and what it says. -/
structure Consistent (ts : List Target) (fs : FileSystem) (r : Except Fault (List Outcome))
    (fs' : FileSystem) : Prop where
  sameShape : SameShape fs fs'
  node?_eq : ∀ place, (∀ t ∈ ts, fs.locate .target t.path ≠ .ok place) →
    fs'.node? place = fs.node? place
  truthful : ∀ outcomes, r = .ok outcomes → ts.Pairwise (Apart fs) →
    List.Forall₂ (Truthful fs fs') ts outcomes

theorem Consistent.nil (fs : FileSystem) : Consistent [] fs (.ok []) fs where
  sameShape := SameShape.refl fs
  node?_eq _ _ := rfl
  truthful outcomes h _ := by
    cases h
    exact .nil

/-- A run that stops at its first target. -/
theorem Consistent.stop {fault : Fault} (h : Processed t fs (.error fault) fs') (ts : List Target) :
    Consistent (t :: ts) fs (.error fault) fs' where
  sameShape := h.sameShape
  node?_eq place hplace := h.node?_eq (hplace t List.mem_cons_self)
  truthful outcomes h _ := by cases h

/-- A run that goes on after its first target: later targets lead elsewhere, and so neither undo what
the first one has done nor are misled by it. -/
theorem Consistent.cons {o : Outcome} {ts : List Target} {rest : Except Fault (List Outcome)}
    {fs₁ : FileSystem} (h : Processed t fs (.ok o) fs₁) (hrest : Consistent ts fs₁ rest fs') :
    Consistent (t :: ts) fs (rest.map (o :: ·)) fs' where
  sameShape := h.sameShape.trans hrest.sameShape
  node?_eq place hplace := by
    rw [hrest.node?_eq place fun t' ht' => ?_, h.node?_eq (hplace t List.mem_cons_self)]
    rw [h.sameShape.locate]
    exact hplace t' (List.mem_cons_of_mem _ ht')
  truthful outcomes houtcomes hapart := by
    obtain ⟨hfirst, hlater⟩ := List.pairwise_cons.mp hapart
    cases rest with
    | error fault => cases houtcomes
    | ok more =>
      cases houtcomes
      have hapart₁ : ts.Pairwise (Apart fs₁) := h.sameShape.pairwise_apart hlater
      refine .cons ?_ ?_
      · -- Later targets do not come back to what the first one leads to.
        rw [Truthful, h.updated_iff rfl]
        refine exists_congr fun place => and_congr_right fun hplace => ?_
        rw [hrest.node?_eq place fun t' ht' => ?_]
        rw [h.sameShape.locate]
        exact hfirst t' ht' place hplace
      · -- What later targets lead to was still as at first when their turn came.
        have hmore := (List.forall₂_and_left _ _).mpr ⟨hfirst, hrest.truthful more rfl hapart₁⟩
        refine hmore.imp fun t' o' ⟨hapart', htruthful⟩ => ?_
        rw [Truthful] at htruthful ⊢
        rw [htruthful, h.sameShape.locate]
        refine exists_congr fun place => and_congr_right fun hplace => ?_
        rw [h.node?_eq fun hplace' => hapart' place hplace' hplace]

theorem exists_consistent (hcheck : u.config.checkOnly = false) (ts : List Target) :
    ∀ fs : FileSystem, fs.HomeReached →
      ∃ r fs', Yields (ts.mapM (processTarget u)) fs r fs' ∧ Consistent ts fs r fs' := by
  induction ts with
  | nil => exact fun fs _ => ⟨.ok [], fs, .pure, .nil fs⟩
  | cons t ts ih =>
    intro fs hhome
    obtain ⟨r, fs₁, hyields, hprocessed⟩ := processTarget_cases hcheck hhome t
    cases r with
    | error fault => exact ⟨_, _, yields_mapM_cons_error hyields ts, .stop hprocessed ts⟩
    | ok o =>
      obtain ⟨r, fs₂, hyields', hconsistent⟩ := ih fs₁ (hprocessed.sameShape.homeReached hhome)
      exact ⟨_, _, yields_mapM_cons hyields hyields', .cons hprocessed hconsistent⟩

/-- What a batch makes of a file system, and what it says: only files that targets lead to can
change, in their bytes alone, and if no two targets lead to the same file, the outcomes tell which
have. -/
structure BatchConsistent (u : Updater) (paths : List Path) (fs : FileSystem)
    (r : Except Fault (List Outcome)) (fs' : FileSystem) : Prop where
  sameShape : SameShape fs fs'
  node?_eq : ∀ place,
    (∀ t, IsTarget u.config fs paths t → fs.locate .target t.path ≠ .ok place) →
      fs'.node? place = fs.node? place
  truthful : ∀ outcomes, r = .ok outcomes → ∃ ts, Yields (targets u.config paths) fs (.ok ts) fs ∧
    (ts.Pairwise (Apart fs) → List.Forall₂ (Truthful fs fs') ts outcomes)

/-- A batch that writes is consistent, whether it comes to an end or stops on a fault. -/
theorem runBatch_consistent (u : Updater) (paths : List Path) (s : Session)
    (hcheck : u.config.checkOnly = false) (hhome : s.files.HomeReached) :
    BatchConsistent u paths s.files (exec (runBatch u paths) s).1
      (exec (runBatch u paths) s).2.files := by
  obtain ⟨r, fs', -, hvisited, hbatch⟩ :=
    yields_discover u.config (keepsShape_processTarget hcheck hhome) paths
  obtain ⟨r', fs'', hrun, hconsistent⟩ :=
    exists_consistent hcheck (plan u.config s.files [] paths).1 s.files hhome
  obtain ⟨rfl, rfl⟩ := hvisited.unique hrun
  obtain ⟨s', hexec, rfl⟩ := hbatch.exec_eq
  rw [runBatch, hexec]
  refine ⟨hconsistent.sameShape, fun place hplace => ?_, fun outcomes houtcomes => ?_⟩
  · exact hconsistent.node?_eq place fun t ht => hplace t (isTarget_of_mem_plan ht)
  · -- A batch that comes to an end has met no fault, in visiting or in searching.
    obtain ⟨hend, rfl⟩ := endWith_eq_ok_iff.mp houtcomes
    exact ⟨_, yields_targets_of_end hend, hconsistent.truthful outcomes rfl⟩

/-- The sample with another file, which has the notice already. -/
def halfDoneFiles : FileSystem :=
  Updater.sampleFiles.put ["work", "B.java"]
    (.file 0o644 "/*\n * notice\n */\npackage b;\n".toUTF8.toList)

/-- The two files as targets. -/
def halfDoneTargets : List Target :=
  [⟨⟨.relative, ["A.java"]⟩, true⟩, ⟨⟨.relative, ["B.java"]⟩, true⟩]

theorem runBatch_consistent_sample : ∃ outcomes s',
    Updater.sampleUpdater.config.checkOnly = false ∧ halfDoneFiles.HomeReached ∧
      exec (runBatch Updater.sampleUpdater [⟨.relative, []⟩]) ⟨halfDoneFiles, []⟩ =
        (.ok outcomes, s') ∧
      outcomes.map (·.status) = [.updated, .unchanged] ∧
      BatchConsistent Updater.sampleUpdater [⟨.relative, []⟩] halfDoneFiles (.ok outcomes) s'.files ∧
      halfDoneTargets.Pairwise (Apart halfDoneFiles) ∧
      List.Forall₂ (Truthful halfDoneFiles s'.files) halfDoneTargets outcomes := by
  have hhome : halfDoneFiles.HomeReached := Updater.homeReached_sampleFiles.put (by decide +kernel) _
  have hplan : plan Updater.sampleUpdater.config halfDoneFiles [] [⟨.relative, []⟩] =
      (halfDoneTargets, none) := by decide +kernel
  have hapart : halfDoneTargets.Pairwise (Apart halfDoneFiles) :=
    List.pairwise_pair.mpr (.of_ne (by decide +kernel))
  have hstatuses : (exec (runBatch Updater.sampleUpdater [⟨.relative, []⟩])
      ⟨halfDoneFiles, []⟩).1.toOption.map (·.map (·.status)) = some [.updated, .unchanged] := by
    decide +kernel
  have hconsistent := runBatch_consistent Updater.sampleUpdater [⟨.relative, []⟩]
    ⟨halfDoneFiles, []⟩ rfl hhome
  rcases hrun : exec (runBatch Updater.sampleUpdater [⟨.relative, []⟩]) ⟨halfDoneFiles, []⟩ with
    ⟨fault | outcomes, s'⟩
  · rw [hrun] at hstatuses
    cases hstatuses
  rw [hrun] at hstatuses hconsistent
  obtain ⟨ts, hfound, htruthful⟩ := hconsistent.truthful outcomes rfl
  obtain rfl := Except.ok.inj ((yields_targets_of_plan hplan).unique hfound).1
  exact ⟨outcomes, s', rfl, hhome, rfl, Option.some.inj hstatuses, hconsistent, hapart,
    htruthful hapart⟩

end Letterhead
