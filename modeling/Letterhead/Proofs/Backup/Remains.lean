import Letterhead.Proofs.Backup.Rollback

/-!
# What remains of a backup

When work under a backup has come to a value, the backup is removed, unless the work has done so.
Whether it is still there is asked by its path, and the answer is about what a link leads to: so a
link that leads nowhere is taken for nothing, and remains.

## Main definitions

* `FileSystem.LeadsNowhere` — at a path there is a link, and nothing where it leads

## Main results

* `exec_discard_cases` — what becomes of a backup after the work
* `withBackup_remains_iff` — when there is something at the path of the backup in the end
-/

namespace Letterhead

open FileSystem

variable {α : Type} {fs : FileSystem} {path backup : Path} {s s' : Session} {suffix : String}

/-- At a path there is a link, and nothing where it leads. -/
def FileSystem.LeadsNowhere (fs : FileSystem) (path : Path) : Prop :=
  fs.isLink path = .ok true ∧ fs.holds path = .ok false

instance : Decidable (fs.LeadsNowhere path) := inferInstanceAs (Decidable (_ ∧ _))

/-- What is at a path and yet does not count as there is a link that leads nowhere. -/
theorem leadsNowhere_iff (hnul : path.hasNul = false) (hholds : fs.holds path = .ok false) :
    fs.LeadsNowhere path ↔ ∃ found, fs.find .entry path = .ok found := by
  constructor
  · rintro ⟨hlink, -⟩
    obtain ⟨-, place, node, hfind, -⟩ := test_eq_true_iff.mp hlink
    exact ⟨_, hfind⟩
  · rintro ⟨⟨place, node⟩, hfind⟩
    refine ⟨?_, hholds⟩
    rw [isLink_of_find hnul hfind, isLink_of_not_holds hnul hholds hfind]

/-! ### The steps around the work -/

/-- The test before the work changes nothing. -/
theorem eq_of_exec_refuseExisting (h : exec (refuseExisting backup) s = (.ok ⟨⟩, s')) : s' = s := by
  obtain ⟨held, between, hholds, hrest⟩ := exists_of_exec_bind h
  obtain ⟨-, rfl⟩ := eq_of_exec_ask hholds
  cases held with
  | true => cases hrest
  | false =>
    obtain ⟨linked, between, hlink, hlast⟩ := exists_of_exec_bind hrest
    obtain ⟨-, rfl⟩ := eq_of_exec_ask hlink
    cases linked with
    | true => cases hlast
    | false =>
      cases hlast
      rfl

/-- Putting back a backup ends in the fault that made it necessary, or in another. -/
theorem restore_gives_nothing (fault : Fault) :
    Gives (fun _ => False) (restore path backup fault : SessionM α) :=
  .bind_last _ fun _ => .bind_last _ fun _ => .throw fault

/-- After the work the backup is removed, or nothing counts as there. -/
theorem exec_discard_cases (h : exec (discard backup) s = (.ok ⟨⟩, s')) :
    s.files.holds backup = .ok false ∧ s' = s ∨
      s.files.holds backup = .ok true ∧
        ∃ files, s.files.unlink backup = .ok files ∧ s' = { s with files } := by
  obtain ⟨held, between, hholds, hrest⟩ := exists_of_exec_bind h
  obtain ⟨hholds, rfl⟩ := eq_of_exec_ask hholds
  cases held with
  | true => exact Or.inr ⟨hholds, (eq_of_exec_change hrest).2⟩
  | false =>
    cases hrest
    exact Or.inl ⟨hholds, rfl⟩

/-- What is unlinked is no directory, and is taken from its place. -/
theorem eq_of_unlink {files : FileSystem} (h : fs.unlink path = .ok files) :
    ∃ place node, fs.find .entry path = .ok (place, node) ∧ node.isDirectory = false ∧
      files = fs.remove place := by
  rw [unlink] at h
  cases hfind : fs.find .entry path with
  | error problem =>
    rw [hfind] at h
    cases h
  | ok found =>
    obtain ⟨place, node⟩ := found
    rw [hfind] at h
    simp only at h
    split at h
    · cases h
    split at h
    · cases h
    split at h
    · cases h
    · rename_i hkind
      exact ⟨place, node, rfl, by simpa using hkind, (Except.ok.inj h).symm⟩

/-- What has been unlinked is gone, and nothing else has come to its path. -/
theorem find_ne_ok_of_unlink {files : FileSystem} (h : fs.unlink path = .ok files)
    (found : Location × Node) : files.find .entry path ≠ .ok found := by
  obtain ⟨place, node, hfind, hkind, rfl⟩ := eq_of_unlink h
  obtain ⟨hlocate, hnode⟩ := find_eq_ok_iff.mp hfind
  refine find_ne_ok_of_remove ?_ hlocate found
  rintro rfl
  cases hnode
  cases hkind

/-- If work under a backup comes to a value, there is something at the path of the backup in the end
just where the work has left a link there that leads nowhere, and then it is left alone. -/
theorem withBackup_remains_iff {work : Path → SessionM α} {a : α}
    (h : exec (withBackup path suffix work) s = (.ok a, s')) :
    ∃ backup moved left, path.backup suffix = .ok backup ∧
      s.files.rename path backup = .ok moved ∧
      exec (work backup) { s with files := moved } = (.ok a, left) ∧
      ((∃ found, s'.files.find .entry backup = .ok found) ↔ left.files.LeadsNowhere backup) ∧
      (left.files.LeadsNowhere backup → s' = left) := by
  obtain ⟨backup, s₀, hbackup, h⟩ := exists_of_exec_bind h
  obtain ⟨⟨⟩, s₁, hrefuse, h⟩ := exists_of_exec_bind h
  obtain ⟨⟨⟩, s₂, hreplace, h⟩ := exists_of_exec_bind h
  obtain ⟨a', left, hwork, h⟩ := exists_of_exec_bind h
  obtain ⟨⟨⟩, s₄, hdiscard, h⟩ := exists_of_exec_bind h
  cases h
  -- The steps before the work name the backup and move the file, no more.
  have hnamed : path.backup suffix = .ok backup ∧ s₀ = s := by
    rw [backupOf] at hbackup
    cases hnamed : path.backup suffix with
    | error error =>
      rw [hnamed] at hbackup
      cases hbackup
    | ok named =>
      rw [hnamed] at hbackup
      cases hbackup
      exact ⟨rfl, rfl⟩
  obtain ⟨hnamed, rfl⟩ := hnamed
  obtain rfl := eq_of_exec_refuseExisting hrefuse
  obtain ⟨-, hnul, moved, hrename, rfl⟩ := eq_of_exec_changeBoth hreplace
  -- The work itself has come to the value: putting back comes to none.
  have hdone : exec (work backup) { s₁ with files := moved } = (.ok a, left) := by
    rw [exec_tryCatch] at hwork
    rcases hexec : exec (work backup) { s₁ with files := moved } with ⟨fault | b, left'⟩
    · rw [hexec] at hwork
      exact absurd hwork (restore_gives_nothing fault _ _ _)
    · rw [hexec] at hwork
      exact hwork
  refine ⟨backup, moved, left, hnamed, hrename, hdone, ?_⟩
  rcases exec_discard_cases hdiscard with ⟨hholds, rfl⟩ | ⟨hholds, files, hunlink, rfl⟩
  · exact ⟨(leadsNowhere_iff hnul hholds).symm, fun _ => rfl⟩
  · have hnot : ¬ left.files.LeadsNowhere backup := by
      rintro ⟨-, hfalse⟩
      rw [hholds] at hfalse
      cases hfalse
    refine ⟨iff_of_false ?_ hnot, fun hnowhere => absurd hnowhere hnot⟩
    rintro ⟨found, hfound⟩
    exact find_ne_ok_of_unlink hunlink found hfound

/-- Work that has nothing to do. -/
def nothingDone : Path → SessionM Unit := fun _ => pure ⟨⟩

theorem withBackup_remains_iff_nothing :
    ∃ s', exec (withBackup ⟨.relative, ["A.java"]⟩ ".bak" nothingDone) ⟨Updater.sampleFiles, []⟩ =
        (.ok ⟨⟩, s') ∧
      ∀ found, s'.files.find .entry ⟨.relative, ["A.java.bak"]⟩ ≠ .ok found := by
  have hbackup : Path.backup ⟨.relative, ["A.java"]⟩ ".bak" = .ok ⟨.relative, ["A.java.bak"]⟩ := by
    decide +kernel
  have hok : (exec (withBackup ⟨.relative, ["A.java"]⟩ ".bak" nothingDone)
      ⟨Updater.sampleFiles, []⟩).1 = .ok ⟨⟩ := by decide +kernel
  rcases hexec : exec (withBackup ⟨.relative, ["A.java"]⟩ ".bak" nothingDone)
    ⟨Updater.sampleFiles, []⟩ with ⟨result, s'⟩
  rw [hexec] at hok
  obtain rfl : result = .ok ⟨⟩ := hok
  obtain ⟨backup, moved, left, hnamed, hrename, hwork, hremains, -⟩ := withBackup_remains_iff hexec
  obtain rfl := Except.ok.inj (hbackup.symm.trans hnamed)
  obtain rfl : ⟨moved, []⟩ = left := congrArg Prod.snd hwork
  -- What was moved aside is a file, and so leads somewhere.
  have hmoved : ((Updater.sampleFiles.rename ⟨.relative, ["A.java"]⟩
      ⟨.relative, ["A.java.bak"]⟩).toOption.map fun moved =>
        decide (moved.LeadsNowhere ⟨.relative, ["A.java.bak"]⟩)) = some false := by decide +kernel
  rw [hrename] at hmoved
  have hsomewhere := of_decide_eq_false (Option.some.inj hmoved)
  exact ⟨s', rfl, fun found hfound => hsomewhere (hremains.mp ⟨found, hfound⟩)⟩

/-- A link that leads nowhere is moved aside, and stays where the backup was. -/
theorem withBackup_leaves_link :
    match exec (withBackup ⟨.relative, ["L"]⟩ ".bak" nothingDone)
        ⟨Updater.sampleFiles.put ["work", "L"] (.link "nowhere"), []⟩ with
    | (result, left) =>
      result = .ok ⟨⟩ ∧
        left.files.find .entry ⟨.relative, ["L.bak"]⟩ =
          .ok (["work", "L.bak"], .link "nowhere") := by
  decide +kernel

end Letterhead
