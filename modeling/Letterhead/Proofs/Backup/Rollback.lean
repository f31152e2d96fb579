import Letterhead.Backup
import Letterhead.Proofs.FileSystem.Beside
import Letterhead.Proofs.Update.Transaction

/-!
# Work that is undone

Work under a backup may do anything: write half a file, remove it, put a link in its stead. If it
then fails, what was at its path is there again and the backup is gone, as long as the work has left
the backup where it was, in a directory that may be changed. Where something stands in the way of the
backup, or the directory may not be changed, the work is not begun.

## Main definitions

* `refusal` — the fault of work whose backup is in the way
* `PutBack` — a node is back in its place, and all else is as the work has left it

## Main results

* `exec_refuseExisting_of_occupied`, `exec_refuseExisting_of_free` — the test before the work
* `withBackup_undone` — work under a backup that fails is undone, or not begun
-/

namespace Letterhead

open FileSystem

variable {α : Type} {fs left after : FileSystem} {path backup : Path} {place spare : Location}
  {node kept : Node} {s : Session} {fault : Fault} {suffix : String}

/-! ### The test before the work -/

/-- The fault of work that would have its backup where something is. A link of which it cannot be told
whether it leads anywhere stops the question. -/
def refusal (fs : FileSystem) (backup : Path) : Fault :=
  match fs.locate .target backup with
  | .ok _ => .backupExists backup
  | .error problem =>
    if problem.Bars then .file ⟨problem, backup.toString, none⟩ else .backupExists backup

theorem refusal_of_error {problem : Problem} (h : fs.locate .target backup = .error problem)
    (hbars : problem.Bars) : refusal fs backup = .file ⟨problem, backup.toString, none⟩ := by
  rw [refusal, h]
  exact if_pos hbars

theorem refusal_of_not_barred (h : ¬ fs.Barred backup) : refusal fs backup = .backupExists backup := by
  rw [refusal]
  split
  · rfl
  · rename_i problem hlocate
    exact if_neg fun hbars => h ⟨problem, hbars, hlocate⟩

/-- If there is anything at the path of the backup, the work is not begun. -/
theorem exec_refuseExisting_of_occupied (hnul : backup.hasNul = false)
    (hfind : s.files.find .entry backup = .ok (spare, kept)) :
    exec (refuseExisting backup) s = (.error (refusal s.files backup), s) := by
  cases hholds : s.files.holds backup with
  | error problem =>
    obtain ⟨-, hlocate, hbars⟩ := (test_eq_error_iff (by decide)).mp hholds
    rw [refusal_of_error hlocate hbars]
    exact exec_bind_of_error (exec_ask_error hholds) _
  | ok answer =>
    have hopen : ¬ s.files.Barred backup := by
      rintro ⟨problem, hbars, hlocate⟩
      have herror : s.files.holds backup = .error problem :=
        (test_eq_error_iff (by decide)).mpr ⟨hnul, hlocate, hbars⟩
      rw [hholds] at herror
      cases herror
    rw [refusal_of_not_barred hopen, refuseExisting, holdsNode, exec_bind_of_ok (exec_ask hholds)]
    cases answer with
    | true => rfl
    | false =>
      -- What does not count as there, though it is, is a link.
      have hlink : s.files.isLink backup = .ok true := by
        rw [isLink_of_find hnul hfind, isLink_of_not_holds hnul hholds hfind]
      exact exec_bind_of_ok (exec_ask hlink) _

/-- Where nothing is, a backup may come to stand. -/
theorem exec_refuseExisting_of_free (hlocate : s.files.locate .entry backup = .ok spare)
    (hnone : s.files.node? spare = none) : exec (refuseExisting backup) s = (.ok ⟨⟩, s) := by
  have hholds : s.files.holds backup = .ok false := test_of_absent (by decide) hlocate hnone
  have hlink : s.files.isLink backup = .ok false := test_of_absent (by decide) hlocate hnone
  rw [refuseExisting, holdsNode, exec_bind_of_ok (exec_ask hholds)]
  exact exec_bind_of_ok (exec_ask hlink) _

/-! ### The work and what follows it -/

theorem exec_backupOf (hbackup : path.backup suffix = .ok backup) :
    exec (backupOf path suffix) s = (.ok backup, s) := by
  rw [backupOf, hbackup]
  rfl

/-- A node is back in its place after it was kept at a spare one. All else is as it was left. -/
structure PutBack (left after : FileSystem) (place spare : Location) (node : Node) : Prop where
  workingDirectory : after.workingDirectory = left.workingDirectory
  node?_place : after.node? place = some node
  node?_spare : after.node? spare = none
  node?_other : ∀ other, other ≠ place → other ≠ spare → after.node? other = left.node? other

theorem putBack_of_move (haside : Aside path backup place spare) :
    PutBack left ((left.remove spare).put place node) place spare node where
  workingDirectory := rfl
  node?_place := by rw [node?_put _ _ haside.place_ne_nil, if_pos rfl]
  node?_spare := by
    rw [node?_put _ _ haside.place_ne_nil, if_neg haside.ne, node?_remove _ haside.spare_ne_nil,
      if_pos rfl]
  node?_other other hother hother' := by
    rw [node?_put _ _ haside.place_ne_nil, if_neg hother.symm, node?_remove _ haside.spare_ne_nil,
      if_neg hother'.symm]

/-- The names of a path lead to its place, and not over that place or the spare one before. -/
def LeadsClear (fs : FileSystem) (path : Path) (place spare : Location) : Prop :=
  ((fs.remove place).remove spare).locate .entry path = .ok place

instance : Decidable (LeadsClear fs path place spare) := inferInstanceAs (Decidable (_ = _))

/-- What is back in its place is found by its path, and nothing by the path of the backup. -/
theorem PutBack.find (h : PutBack left after place spare node)
    (haside : Aside path backup place spare) (hclear : LeadsClear left path place spare) :
    after.find .entry path = .ok (place, node) ∧ after.find .entry backup = .error .noEntry := by
  have hwithin : Within ((left.remove place).remove spare) after := by
    -- Apart from the two places, nothing has changed since the work.
    refine ⟨h.workingDirectory, fun other found hfound => ?_⟩
    rw [node?_remove _ haside.spare_ne_nil] at hfound
    split at hfound
    · cases hfound
    rename_i hother
    rw [node?_remove _ haside.place_ne_nil] at hfound
    split at hfound
    · cases hfound
    rename_i hother'
    rw [h.node?_other other (Ne.symm hother') (Ne.symm hother), hfound]
  have hlocate := hwithin.locate hclear
  refine ⟨find_eq_ok_iff.mpr ⟨hlocate, h.node?_place⟩, ?_⟩
  rw [FileSystem.find, haside.locate_backup after hlocate]
  simp only [h.node?_spare]

/-- Where a backup can be taken, it is, and then the work is done. -/
theorem exec_withBackup {moved : FileSystem} (hbackup : path.backup suffix = .ok backup)
    (hnul : path.hasNul = false) (hnul' : backup.hasNul = false)
    (hspare : s.files.locate .entry backup = .ok spare) (hfree : s.files.node? spare = none)
    (hrename : s.files.rename path backup = .ok moved) (work : Path → SessionM α) :
    exec (withBackup path suffix work) s =
      exec (do
        let result ← tryCatch (work backup) (restore path backup)
        discard backup
        pure result) { s with files := moved } := by
  rw [withBackup, exec_bind_of_ok (exec_backupOf hbackup),
    exec_bind_of_ok (exec_refuseExisting_of_free hspare hfree), replaceFile,
    exec_bind_of_ok (exec_changeBoth hnul hnul' hrename)]

/-- What has been kept is moved back, and the fault goes on. -/
theorem exec_restore (haside : Aside path backup place spare) (hnul : path.hasNul = false)
    (hnul' : backup.hasNul = false) (hnode : node.isDirectory = false)
    (hkept : s.files.find .entry backup = .ok (spare, node))
    (hover : ∀ other mode, s.files.find .entry path ≠ .ok (other, .directory mode))
    (hpermits : s.files.permitsChange place) :
    ∃ s', exec (restore path backup fault : SessionM α) s = (.error fault, s') ∧
      s'.files = (s.files.remove spare).put place node := by
  obtain ⟨hlocate, hspare⟩ := find_eq_ok_iff.mp hkept
  have hplace : ¬ s.files.has Node.isDirectory place := by
    intro hdir
    obtain ⟨found, hfound, hfound'⟩ := has_eq_true_iff.mp hdir
    cases found with
    | directory mode =>
      exact hover place mode (find_eq_ok_iff.mpr ⟨haside.locate_path s.files hlocate, hfound⟩)
    | file | link => cases hfound'
  have hrename := haside.symm.rename hlocate hspare hnode hplace
    ((haside.permitsChange s.files).trans hpermits)
  have hyields : Yields (restore path backup fault : SessionM α) s.files (.error fault)
      ((s.files.remove spare).put place node) :=
    Yields.note.bind ((Yields.changeBoth hnul' hnul hrename).bind .throw)
  exact hyields.exec_eq

/-- Work under a backup is not begun where something stands in the way of the backup, nor where the
directory may not be changed. Otherwise work that fails is undone: if it has left the backup in its
place, in a directory that may be changed, and no directory at the path, then what was moved aside is
back, nothing is left of the backup, everything else is as the work left it, and the fault is the
work's own. -/
theorem withBackup_undone (hhome : s.files.HomeReached) (hnul : path.hasNul = false)
    (hfind : s.files.find .entry path = .ok (place, node)) (hnode : node.isDirectory = false)
    (hbackup : path.backup suffix = .ok backup) (hnul' : backup.hasNul = false)
    (hspare : s.files.locate .entry backup = .ok spare) (work : Path → SessionM α) :
    (s.files.node? spare ≠ none →
      exec (withBackup path suffix work) s = (.error (refusal s.files backup), s)) ∧
    (s.files.node? spare = none → ¬ s.files.permitsChange place →
      exec (withBackup path suffix work) s =
        (.error (.file ⟨.permissionDenied, path.toString, some backup.toString⟩), s)) ∧
    (s.files.node? spare = none → s.files.permitsChange place → ∀ fault left,
      exec (work backup) { s with files := (s.files.remove place).put spare node } =
        (.error fault, left) →
      left.files.find .entry backup = .ok (spare, node) →
      left.files.permitsChange place →
      (∀ other mode, left.files.find .entry path ≠ .ok (other, .directory mode)) →
        ∃ s', exec (withBackup path suffix work) s = (.error fault, s') ∧
          PutBack left.files s'.files place spare node ∧
          (LeadsClear left.files path place spare →
            s'.files.find .entry path = .ok (place, node) ∧
              s'.files.find .entry backup = .error .noEntry)) := by
  obtain ⟨hplace, hthere⟩ := find_eq_ok_iff.mp hfind
  -- The two places are beside each other, before the work and after it: all that the work may have
  -- done in between is seen through the path of the backup, which still leads there.
  have haside (hfree : s.files.node? spare = none) : Aside path backup place spare := by
    have hdir : ¬ s.files.has Node.isDirectory place := not_has_of_node? hthere hnode
    have hne : place ≠ spare := by
      rintro rfl
      rw [hthere] at hfree
      cases hfree
    exact aside_of_backup hhome hbackup hplace hdir hspare (not_has_of_none hfree _) hne
  refine ⟨fun hoccupied => ?_, fun hfree hpermits => ?_, ?_⟩
  · obtain ⟨kept, hkept⟩ := Option.ne_none_iff_exists'.mp hoccupied
    rw [withBackup, exec_bind_of_ok (exec_backupOf hbackup)]
    exact exec_bind_of_error
      (exec_refuseExisting_of_occupied hnul' (find_eq_ok_iff.mpr ⟨hspare, hkept⟩)) _
  · have hrename := (haside hfree).rename_denied hplace hthere hnode hpermits
    rw [withBackup, exec_bind_of_ok (exec_backupOf hbackup),
      exec_bind_of_ok (exec_refuseExisting_of_free hspare hfree)]
    exact exec_bind_of_error (exec_changeBoth_error hnul hnul' hrename) _
  · intro hfree hpermits fault left hwork hkept hpermits' hover
    have haside := haside hfree
    have hrename := haside.rename hplace hthere hnode (not_has_of_none hfree _) hpermits
    obtain ⟨s', hrestore, hfiles⟩ : ∃ s',
        exec (restore path backup fault : SessionM α) left = (.error fault, s') ∧
          s'.files = (left.files.remove spare).put place node :=
      exec_restore haside hnul hnul' hnode hkept hover hpermits'
    have hbracket : exec (tryCatch (work backup) (restore path backup))
        { s with files := (s.files.remove place).put spare node } = (.error fault, s') := by
      rw [exec_tryCatch, hwork]
      exact hrestore
    have hputBack : PutBack left.files s'.files place spare node :=
      hfiles ▸ putBack_of_move haside
    refine ⟨s', ?_, hputBack, hputBack.find haside⟩
    rw [exec_withBackup hbackup hnul hnul' hspare hfree hrename]
    exact exec_bind_of_error hbracket _

/-- Work on `path` that writes half a file and gives up. -/
def halfWritten (path : Path) : Path → SessionM Unit := fun _ => do
  writeFile path "pack".toUTF8.toList
  throw (.aborted "boom")

theorem withBackup_undone_halfWritten :
    ∃ s', exec (withBackup ⟨.relative, ["A.java"]⟩ ".bak" (halfWritten ⟨.relative, ["A.java"]⟩))
        ⟨Updater.sampleFiles, []⟩ = (.error (.aborted "boom"), s') ∧
      s'.files.find .entry ⟨.relative, ["A.java"]⟩ =
        .ok (["work", "A.java"], .file 0o640 "package a;\n".toUTF8.toList) ∧
      s'.files.find .entry ⟨.relative, ["A.java.bak"]⟩ = .error .noEntry := by
  have hfind : Updater.sampleFiles.find .entry ⟨.relative, ["A.java"]⟩ =
      .ok (["work", "A.java"], .file 0o640 "package a;\n".toUTF8.toList) := by decide +kernel
  have hbackup : Path.backup ⟨.relative, ["A.java"]⟩ ".bak" = .ok ⟨.relative, ["A.java.bak"]⟩ := by
    decide +kernel
  have hspare : Updater.sampleFiles.locate .entry ⟨.relative, ["A.java.bak"]⟩ =
      .ok ["work", "A.java.bak"] := by decide +kernel
  obtain ⟨-, -, hundone⟩ := withBackup_undone (s := ⟨Updater.sampleFiles, []⟩)
    Updater.homeReached_sampleFiles rfl hfind (by decide) hbackup rfl hspare
    (halfWritten ⟨.relative, ["A.java"]⟩)
  -- When the work gives up, half a file is at the path, and the backup is beside it.
  obtain ⟨left, hwork, hkept, hpermits, hhalf, hclear⟩ : ∃ left,
      exec (halfWritten ⟨.relative, ["A.java"]⟩ ⟨.relative, ["A.java.bak"]⟩)
        ⟨(Updater.sampleFiles.remove ["work", "A.java"]).put ["work", "A.java.bak"]
          (.file 0o640 "package a;\n".toUTF8.toList), []⟩ = (.error (.aborted "boom"), left) ∧
      left.files.find .entry ⟨.relative, ["A.java.bak"]⟩ =
        .ok (["work", "A.java.bak"], .file 0o640 "package a;\n".toUTF8.toList) ∧
      left.files.permitsChange ["work", "A.java"] ∧
      left.files.find .entry ⟨.relative, ["A.java"]⟩ =
        .ok (["work", "A.java"], .file 0o644 "pack".toUTF8.toList) ∧
      LeadsClear left.files ⟨.relative, ["A.java"]⟩ ["work", "A.java"] ["work", "A.java.bak"] :=
    ⟨_, Prod.ext (by decide +kernel) rfl, by decide +kernel, by decide +kernel, by decide +kernel,
      by decide +kernel⟩
  obtain ⟨s', hexec, -, hfound⟩ := hundone (by decide +kernel) (by decide +kernel)
    (.aborted "boom") left hwork hkept hpermits (by simp [hhalf])
  exact ⟨s', hexec, hfound hclear⟩

/-- Work that gives up at once. -/
def givenUp : Path → SessionM Unit := fun _ => throw (.aborted "boom")

/-- A file, and a link to a name that no system takes where its backup would go. -/
def blockedFiles : FileSystem :=
  Updater.sampleFiles.put ["work", "A.java.bak"] (.link (letters 256))

/-- A directory and a link to it. -/
def linkedFiles : FileSystem :=
  (Updater.sampleFiles.put ["work", "d"] (.directory newDirectoryMode)).put ["work", "A"]
    (.link "d")

/-- A link in the way of a backup that cannot be asked about is not told as such. A path that leads
over itself leads nowhere once it is moved, and then what was there is not put back. -/
theorem withBackup_not_undone :
    (exec (withBackup ⟨.relative, ["A.java"]⟩ ".bak" givenUp) ⟨blockedFiles, []⟩).1 =
        .error (.file ⟨.nameTooLong, "A.java.bak", none⟩) ∧
      match exec (withBackup ⟨.relative, ["A", "..", "A"]⟩ ".bak" givenUp) ⟨linkedFiles, []⟩ with
      | (result, left) =>
        result = .error (.file ⟨.noEntry, "A/../A.bak", some "A/../A"⟩) ∧
          left.files.node? ["work", "A"] = none ∧
          left.files.node? ["work", "A.bak"] = some (.link "d") := by
  have hbackup : Path.backup ⟨.relative, ["A.java"]⟩ ".bak" = .ok ⟨.relative, ["A.java.bak"]⟩ := by
    decide +kernel
  have hlocate : blockedFiles.locate .entry ⟨.relative, ["A.java.bak"]⟩ =
      .ok ["work", "A.java.bak"] := by decide +kernel
  have hnode : blockedFiles.node? ["work", "A.java.bak"] = some (.link (letters 256)) := by
    rw [blockedFiles, node?_put _ _ (by simp), if_pos rfl]
  have hlong : blockedFiles.locate .target ⟨.relative, ["A.java.bak"]⟩ = .error .nameTooLong := by
    refine locate_link_of_long (by decide +kernel) ⟨by decide, by decide, by decide, by decide⟩
      (by decide) hnode ?_ ?_
    · rw [utf8ByteSize_letters]
      decide
    · exact not_mem_letters (by decide) 256
  refine ⟨?_, by decide +kernel⟩
  have hrefused : exec (refuseExisting ⟨.relative, ["A.java.bak"]⟩) ⟨blockedFiles, []⟩ =
      (.error (refusal blockedFiles ⟨.relative, ["A.java.bak"]⟩), ⟨blockedFiles, []⟩) :=
    exec_refuseExisting_of_occupied rfl (find_eq_ok_iff.mpr ⟨hlocate, hnode⟩)
  rw [refusal_of_error hlong (Or.inl rfl)] at hrefused
  rw [withBackup, exec_bind_of_ok (exec_backupOf hbackup), exec_bind_of_error hrefused]
  rfl

end Letterhead
