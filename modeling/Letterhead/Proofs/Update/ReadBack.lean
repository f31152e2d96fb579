import Letterhead.Proofs.Update.Check
import Letterhead.Proofs.Update.Rerun

/-!
# What an update writes is what is read back

The lines that an update puts into a file are the lines that the next scan of the file sees,
whatever bytes the file held at first. So a second update can be foretold from the lines of the
first revision alone: it says what the scanner says of these lines.

## Main results

* `Updater.ready_again`, `Updater.exists_second_update` — the file after an update, and what a second
  one does to it
* `Updater.update_reads_back` — the lines of a revision are read back, and decide the second update
-/

namespace Letterhead.Updater

variable {u : Updater} {fs : FileSystem} {path : Path} {charset : Charset} {i : Inspection}

theorem report_status_eq_updated_iff {rendered : List UInt8} :
    (report path i rendered).status = .updated ↔ newContent i rendered ≠ i.content := by
  rw [report_status]
  split <;> simp [*]

/-- A file that has been read and scanned: its text, and the revision of its lines. -/
theorem read_of_inspection (h : u.inspection fs path = .ok i) :
    fs.read path = .ok i.content ∧ ∃ t, u.textOf i.content = .ok t ∧
      i.revision = u.revisionOf path t := by
  rw [inspection, contentAt] at h
  split at h
  · cases h
  cases hread : fs.read path with
  | error problem => rw [hread] at h; cases h
  | ok content =>
    rw [hread] at h
    change (u.textOf content >>= _) = _ at h
    cases htext : u.textOf content with
    | error fault => rw [htext] at h; cases h
    | ok t =>
      rw [htext] at h
      cases h
      exact ⟨rfl, t, htext, rfl⟩

/-- In a charset, the revision of a file that has been read is worked out from its content. -/
theorem revision_of_inspection (hcharset : Charset.ofName? u.config.charsetName = some charset)
    (h : u.inspection fs path = .ok i) :
    i.revision = u.revisionOf path (charset.decode i.content) := by
  obtain ⟨-, t, htext, hrevision⟩ := read_of_inspection h
  rw [hrevision, textOf_eq_ok htext hcharset]

/-- After a successful update the file is ready to be updated again, and has the bytes of the first
revision. -/
theorem ready_again (hcharset : Charset.ofName? u.config.charsetName = some charset)
    {s s₁ : Session} {outcome : Outcome} (hhome : s.files.HomeReached)
    (hscan : u.inspection s.files path = .ok i)
    (hupdate : exec (u.update path) s = (.ok outcome, s₁)) :
    ∃ target backup place spare mode rendered,
      u.Ready s₁.files path target backup place spare mode (newContent i rendered)
          (charset.decode (newContent i rendered)) ∧
        charset.encode i.revision.render = .ok rendered := by
  obtain ⟨content, revision⟩ := i
  have hread : s.files.read path = .ok content := (read_of_inspection hscan).1
  obtain rfl : revision = u.revisionOf path (charset.decode content) :=
    revision_of_inspection hcharset hscan
  obtain ⟨target, backup, place, spare, mode, rendered, h, hrendered, hfiles⟩ :=
    exists_ready_of_update hhome hread hcharset hupdate
  rw [hfiles]
  exact ⟨target, backup, place, spare, mode, rendered,
    h.put (textOf_of_textOf h.decoded hcharset _), hrendered⟩

/-- After a successful update the file is read, scanned and updated again without a fault, and the
second update reports a change just if the second scan changes the lines that the first has left. -/
theorem exists_second_update (hlegible : ∀ line ∈ u.notice.toLines, charset.Legible line)
    (hcharset : Charset.ofName? u.config.charsetName = some charset) {s s₁ : Session}
    {outcome : Outcome} (hhome : s.files.HomeReached) (hscan : u.inspection s.files path = .ok i)
    (hupdate : exec (u.update path) s = (.ok outcome, s₁)) :
    ∃ j again s₂, u.inspection s₁.files path = .ok j ∧
      (i.revision.changed → charset.encode i.revision.render = .ok j.content) ∧
        linesOf charset j.content = i.revision.lines ∧
          exec (u.update path) s₁ = (.ok again, s₂) ∧
            (again.status = .updated ↔ j.revision.lines ≠ i.revision.lines) := by
  obtain ⟨target, backup, place, spare, mode, rendered, hagain, hrendered⟩ :=
    ready_again hcharset hhome hscan hupdate
  obtain ⟨content, revision⟩ := i
  obtain rfl : revision = u.revisionOf path (charset.decode content) :=
    revision_of_inspection hcharset hscan
  obtain ⟨bytes, hbytes, -⟩ := linesOf_encode hlegible path
    (newContent ⟨content, u.revisionOf path (charset.decode content)⟩ rendered)
  -- The second revision has bytes, so the second update comes to an end.
  have hsecond := hagain.update
  rw [bytesOf_eq_ok_iff.mpr ⟨charset, hcharset, hbytes⟩] at hsecond
  obtain ⟨s₂, hexec, -⟩ := Yields.exec_eq hsecond
  refine ⟨_, _, s₂, hagain.inspection, fun hchanged => ?_, ?_, hexec, ?_⟩
  · -- A changed revision is what was written.
    rw [newContent, if_pos hchanged]
    exact hrendered
  · exact linesOf_newContent hlegible hrendered
  · rw [report_status_eq_updated_iff]
    exact not_congr (newContent_again_eq_iff hlegible hrendered rfl hbytes)

/-- What is written is what is read back, for every content that the file had, valid in the charset
or not, and every notice that the charset has bytes for: a scan of the new file sees the lines that
the first scan has left. So a second update reports a change just if the scanner changes these
lines. -/
theorem update_reads_back {text : String} {header : List UInt8} {s s₁ : Session} {outcome : Outcome}
    (hnotice : Notice.ofString? text = some u.notice)
    (hcharset : Charset.ofName? u.config.charsetName = some charset)
    (hencode : charset.encode (Text.unlines u.notice.toLines) = .ok header)
    (hhome : s.files.HomeReached) (hscan : Yields (u.inspect path) s.files (.ok i) s.files)
    (hupdate : exec (u.update path) s = (.ok outcome, s₁)) :
    ∃ j again s₂, Yields (u.inspect path) s₁.files (.ok j) s₁.files ∧
      (i.revision.changed → charset.encode i.revision.render = .ok j.content) ∧
        linesOf charset j.content = i.revision.lines ∧
          j.revision = revise u.notice.toLines path.toString i.revision.lines ∧
            exec (u.update path) s₁ = (.ok again, s₂) ∧
              (again.status = .updated ↔
                j.revision.changed ∧ j.revision.lines ≠ i.revision.lines) := by
  have hlegible := Notice.legible hnotice hencode
  obtain ⟨hinspection, -⟩ := hscan.unique (u.yields_inspection path s.files)
  obtain ⟨j, again, s₂, hsecond, hwritten, hlines, hexec, hstatus⟩ :=
    exists_second_update hlegible hcharset hhome hinspection.symm hupdate
  have hrevision : j.revision = revise u.notice.toLines path.toString i.revision.lines := by
    rw [revision_of_inspection hcharset hsecond, revisionOf]
    exact congrArg _ hlines
  have hrescan := u.yields_inspection path s₁.files
  rw [hsecond] at hrescan
  refine ⟨j, again, s₂, hrescan, hwritten, hlines, hrevision, hexec, hstatus.trans ?_⟩
  rw [iff_and_self]
  intro hne
  -- Lines that are not marked as changed come out as they went in.
  by_contra hchanged
  rw [hrevision] at hne hchanged
  exact hne (revise_of_not_changed (by simpa using hchanged))

/-- A notice that closes before its last line, which every update leaves behind. -/
theorem update_reads_back_unclean :
    ∃ i outcome s₁ j again s₂,
      Yields (uncleanUpdater.inspect ⟨.relative, ["A.java"]⟩) sampleFiles (.ok i) sampleFiles ∧
        exec (uncleanUpdater.update ⟨.relative, ["A.java"]⟩) ⟨sampleFiles, []⟩ =
          (.ok outcome, s₁) ∧
        Yields (uncleanUpdater.inspect ⟨.relative, ["A.java"]⟩) s₁.files (.ok j) s₁.files ∧
          (i.revision.changed → Charset.encode .utf8 i.revision.render = .ok j.content) ∧
            linesOf .utf8 j.content = i.revision.lines ∧
              j.revision = revise uncleanUpdater.notice.toLines "A.java" i.revision.lines ∧
                exec (uncleanUpdater.update ⟨.relative, ["A.java"]⟩) s₁ = (.ok again, s₂) ∧
                  (again.status = .updated ↔
                    j.revision.changed ∧ j.revision.lines ≠ i.revision.lines) := by
  have hnotice : Notice.ofString? "/*\ninner */\n*/" = some uncleanUpdater.notice := by
    decide +kernel
  have hsome : (exec (uncleanUpdater.update ⟨.relative, ["A.java"]⟩)
      ⟨sampleFiles, []⟩).1.toOption.isSome := by decide +kernel
  have hencode : ∃ header, Charset.encode .utf8 (Text.unlines uncleanUpdater.notice.toLines) =
      .ok header := ⟨_, rfl⟩
  obtain ⟨header, hheader⟩ := hencode
  have hread : sampleFiles.read ⟨.relative, ["A.java"]⟩ = .ok "package a;\n".toUTF8.toList := by
    rfl
  have htext : uncleanUpdater.textOf "package a;\n".toUTF8.toList =
      .ok (Text.ofString "package a;\n") := by decide +kernel
  have hscan := yields_inspect rfl hread htext
  rcases hupdate : exec (uncleanUpdater.update ⟨.relative, ["A.java"]⟩) ⟨sampleFiles, []⟩ with
    ⟨fault | outcome, s₁⟩
  · rw [hupdate] at hsome
    cases hsome
  · obtain ⟨j, again, s₂, hsecond⟩ := update_reads_back hnotice (by decide +kernel) hheader
      homeReached_sampleFiles hscan hupdate
    exact ⟨_, outcome, s₁, j, again, s₂, hscan, rfl, hsecond⟩

end Letterhead.Updater
