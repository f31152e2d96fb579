import Letterhead.Proofs.FileSystem.Shape
import Letterhead.Proofs.Notice
import Letterhead.Proofs.Update.Transaction

/-!
# Updating a file twice

A file that has been updated can be updated again: nothing stands in the way that did not before, and
the lines that were written are the lines that are read. So the second update does to the file what a
second scan does to its lines, and it changes nothing just if that scan does not.

## Main results

* `Updater.Ready.put` — an updated file is ready to be updated again
* `Updater.linesOf_newContent` — the lines that were written are read back
* `Updater.update_again_unchanged_iff` — when a second update leaves the file as it is
-/

namespace Letterhead.Updater

open FileSystem (SameShape)

variable {u : Updater} {fs : FileSystem} {path target backup : Path} {place spare : Location}
  {mode : Nat} {content new rendered : List UInt8} {t : Text} {charset : Charset}

/-! ### The file system after an update -/

/-- What is ready to be updated is so in every file system of the same shape, whatever the file holds
there. -/
theorem Ready.reshape (h : u.Ready fs path target backup place spare mode content t)
    {fs' : FileSystem} (hshape : SameShape fs fs')
    (hplace : fs'.node? place = some (.file mode new)) {t' : Text}
    (hdecoded : u.textOf new = .ok t') :
    u.Ready fs' path target backup place spare mode new t' := by
  have b := h.bracket
  have hspare : fs'.node? spare = none := by
    have hhollow := hshape.node?_hollow spare
    rw [b.node?_spare] at hhollow
    exact Option.map_eq_none_iff.mp hhollow
  refine
    { noNul := h.noNul
      found := FileSystem.find_eq_ok_iff.mpr ⟨?_, hplace⟩
      readable := h.readable
      decoded := hdecoded
      written := ?_
      named := h.named
      bracket :=
        { b with
          locate_target := (hshape.locate ..).trans b.locate_target
          locate_backup := (hshape.locate ..).trans b.locate_backup
          node?_place := hplace
          node?_spare := hspare
          permits := b.permits.imp hshape.agree.permitsChange hshape.agree.permitsChange } }
  · rw [hshape.locate]
    exact (FileSystem.find_eq_ok_iff.mp h.found).1
  · rw [WrittenAs, hshape.isLink, FileSystem.realPath, hshape.locate]
    exact h.written

/-- An updated file is ready to be updated again. -/
theorem Ready.put (h : u.Ready fs path target backup place spare mode content t) {t' : Text}
    (hdecoded : u.textOf new = .ok t') :
    u.Ready (fs.put place (.file mode new)) path target backup place spare mode new t' := by
  have b := h.bracket
  refine h.reshape (.put b.node?_place new) ?_ hdecoded
  rw [FileSystem.node?_put _ _ b.place_ne_nil, if_pos rfl]

/-- Once a file has been read, any other content can be read in its place. -/
theorem textOf_of_textOf (h : u.textOf content = .ok t)
    (hcharset : Charset.ofName? u.config.charsetName = some charset) (new : List UInt8) :
    u.textOf new = .ok (charset.decode new) := by
  have hnul : u.config.charsetName.toList.contains '\x00' = false := by
    cases hcontains : u.config.charsetName.toList.contains '\x00' with
    | false => rfl
    | true => rw [textOf, if_pos hcontains] at h; cases h
  rw [textOf, hnul, hcharset]
  cases new with
  | nil => cases charset <;> rfl
  | cons byte new => rfl

/-! ### The lines after an update -/

/-- The lines of a file with the given content. -/
def linesOf (charset : Charset) (content : List UInt8) : List Text :=
  (charset.decode content).unifyLineEnds.lines

theorem legible_revision (hnotice : ∀ line ∈ u.notice.toLines, charset.Legible line) (path : Path)
    (content : List UInt8) :
    ∀ line ∈ (u.revisionOf path (charset.decode content)).lines, charset.Legible line := by
  intro line hline
  rcases mem_revise_lines hline with h | h | rfl
  · exact charset.legible_of_mem_lines content line h
  · exact hnotice line h
  · exact charset.legible_nil

/-- The revision of a file can be written, and is read back. -/
theorem linesOf_encode (hnotice : ∀ line ∈ u.notice.toLines, charset.Legible line) (path : Path)
    (content : List UInt8) :
    ∃ rendered, charset.encode (u.revisionOf path (charset.decode content)).render = .ok rendered ∧
      linesOf charset rendered = (u.revisionOf path (charset.decode content)).lines :=
  Charset.exists_encode_unlines (legible_revision hnotice path content)

/-- The lines of an updated file are those of its revision, whether it was written or left as it
was. -/
theorem linesOf_newContent (hnotice : ∀ line ∈ u.notice.toLines, charset.Legible line)
    (hrendered : charset.encode (u.revisionOf path (charset.decode content)).render = .ok rendered) :
    linesOf charset (newContent ⟨content, u.revisionOf path (charset.decode content)⟩ rendered) =
      (u.revisionOf path (charset.decode content)).lines := by
  rw [newContent]
  cases hchanged : (u.revisionOf path (charset.decode content)).changed with
  | false => exact (revise_of_not_changed hchanged).symm
  | true =>
    obtain ⟨bytes, hbytes, hlines⟩ := linesOf_encode hnotice path content
    rw [hrendered] at hbytes
    rw [if_pos rfl, Except.ok.inj hbytes, hlines]

/-- A second update leaves the content as the first one made it just if a second scan leaves the
lines so. -/
theorem newContent_again_eq_iff (hnotice : ∀ line ∈ u.notice.toLines, charset.Legible line)
    {again : List UInt8}
    (hrendered : charset.encode (u.revisionOf path (charset.decode content)).render = .ok rendered)
    (hnew : new = newContent ⟨content, u.revisionOf path (charset.decode content)⟩ rendered)
    (hagain : charset.encode (u.revisionOf path (charset.decode new)).render = .ok again) :
    newContent ⟨new, u.revisionOf path (charset.decode new)⟩ again = new ↔
      (u.revisionOf path (charset.decode new)).lines =
        (u.revisionOf path (charset.decode content)).lines := by
  have hlines : linesOf charset new = (u.revisionOf path (charset.decode content)).lines := by
    rw [hnew, linesOf_newContent hnotice hrendered]
  constructor
  · intro heq
    have hread := linesOf_newContent hnotice hagain
    rw [heq, hlines] at hread
    exact hread.symm
  · intro heq
    rw [newContent]
    cases hchanged : (u.revisionOf path (charset.decode new)).changed with
    | false => rfl
    | true =>
      rw [if_pos rfl]
      cases hfirst : (u.revisionOf path (charset.decode content)).changed with
      | true =>
        -- The first update wrote these lines already.
        rw [Revision.render, heq] at hagain
        rw [Revision.render, hagain] at hrendered
        rw [hnew, newContent, if_pos hfirst]
        exact Except.ok.inj hrendered
      | false =>
        -- The file was not written, so the second scan is the first one over again.
        have hsame : new = content := by rw [hnew, newContent, if_neg (by simp [hfirst])]
        rw [hsame, hfirst] at hchanged
        cases hchanged

/-! ### The second update -/

/-- After a successful update, what the file was and what it has become. -/
theorem exists_ready_of_update {s s₁ : Session} {outcome : Outcome} (hhome : s.files.HomeReached)
    (hread : s.files.read path = .ok content)
    (hcharset : Charset.ofName? u.config.charsetName = some charset)
    (hfirst : exec (u.update path) s = (.ok outcome, s₁)) :
    ∃ target backup place spare mode rendered,
      u.Ready s.files path target backup place spare mode content (charset.decode content) ∧
        charset.encode (u.revisionOf path (charset.decode content)).render = .ok rendered ∧
          s₁.files = s.files.put place
            (.file mode (newContent ⟨content, u.revisionOf path (charset.decode content)⟩ rendered)) := by
  rcases u.ready_or_fails hhome path with
    ⟨fault, hfails⟩ | ⟨target, backup, place, spare, mode, content', t, h⟩
  · obtain ⟨s', hexec, -⟩ := hfails.exec_eq
    rw [hfirst] at hexec
    cases hexec
  · obtain rfl : content' = content := Except.ok.inj (h.read.symm.trans hread)
    obtain rfl := textOf_eq_ok h.decoded hcharset
    have hupdate := h.update
    cases hrendered : u.bytesOf (u.revisionOf path (charset.decode content')).render with
    | error fault =>
      rw [hrendered] at hupdate
      obtain ⟨s', hexec, -⟩ := Yields.exec_eq hupdate
      rw [hfirst] at hexec
      cases hexec
    | ok rendered =>
      rw [hrendered] at hupdate
      obtain ⟨s', hexec, hfiles⟩ := Yields.exec_eq hupdate
      rw [hfirst] at hexec
      cases hexec
      obtain ⟨_, hcharset', hencode⟩ := bytesOf_eq_ok_iff.mp hrendered
      obtain rfl := Option.some.inj (hcharset.symm.trans hcharset')
      exact ⟨target, backup, place, spare, mode, rendered, h, hencode, hfiles⟩

/-- With a notice that looks like a header, a second update of a file succeeds if the first did. It
changes nothing unless the first one kept a package line from inside an old header, or put in a
notice that is not one header comment. -/
theorem update_again_unchanged_iff {text : String} {header : List UInt8} {s s₁ : Session}
    {outcome : Outcome} (hnotice : Notice.ofString? text = some u.notice)
    (hblock : u.notice.isBlockComment)
    (hcharset : Charset.ofName? u.config.charsetName = some charset)
    (hencode : charset.encode (Text.unlines u.notice.toLines) = .ok header)
    (hhome : s.files.HomeReached) (hread : s.files.read path = .ok content)
    (hfirst : exec (u.update path) s = (.ok outcome, s₁)) :
    ∃ again s₂, exec (u.update path) s₁ = (.ok again, s₂) ∧
      (again.status = .unchanged ∧ s₂.files = s₁.files ↔
        ¬ KeepsPackageLine (linesOf charset content) ∧
          (LeadsWithNotice (linesOf charset content) → IsClean u.notice.toLines)) := by
  have hlegible := Notice.legible hnotice hencode
  obtain ⟨target, backup, place, spare, mode, rendered, h, hrendered, hfiles⟩ :=
    exists_ready_of_update hhome hread hcharset hfirst
  generalize hnew :
    newContent ⟨content, u.revisionOf path (charset.decode content)⟩ rendered = new at hfiles
  obtain ⟨bytes, hbytes, -⟩ := linesOf_encode (u := u) hlegible path new
  have hagain := h.put (textOf_of_textOf h.decoded hcharset new)
  have hupdate := hagain.update
  rw [bytesOf_eq_ok_iff.mpr ⟨charset, hcharset, hbytes⟩, ← hfiles] at hupdate
  obtain ⟨s₂, hexec, hfiles₂⟩ := Yields.exec_eq hupdate
  refine ⟨_, s₂, hexec, ?_⟩
  have hlines : linesOf charset new = (u.revisionOf path (charset.decode content)).lines := by
    rw [← hnew, linesOf_newContent hlegible hrendered]
  have hscan := rescan_eq_iff_of_isBlock (Notice.isBlock hblock) path.toString
    (linesOf charset content)
  calc _ ↔ newContent ⟨new, u.revisionOf path (charset.decode new)⟩ bytes = new := by
        rw [report_status, hfiles₂]
        constructor
        · rintro ⟨hstatus, -⟩
          split at hstatus
          · assumption
          · cases hstatus
        · intro heq
          rw [heq, if_pos rfl, hfiles]
          exact ⟨rfl, hagain.bracket.put_self⟩
    _ ↔ (u.revisionOf path (charset.decode new)).lines =
          (u.revisionOf path (charset.decode content)).lines :=
        newContent_again_eq_iff hlegible hrendered hnew.symm hbytes
    _ ↔ (revise u.notice.toLines path.toString (linesOf charset new)).lines =
          (revise u.notice.toLines path.toString (linesOf charset content)).lines := Iff.rfl
    _ ↔ _ := by
        rw [hlines]
        exact hscan

theorem update_again_sample :
    ∃ outcome s₁ again s₂,
      exec (sampleUpdater.update ⟨.relative, ["A.java"]⟩) ⟨sampleFiles, []⟩ = (.ok outcome, s₁) ∧
        exec (sampleUpdater.update ⟨.relative, ["A.java"]⟩) s₁ = (.ok again, s₂) ∧
          (again.status = .unchanged ∧ s₂.files = s₁.files ↔
            ¬ KeepsPackageLine (linesOf .utf8 "package a;\n".toUTF8.toList) ∧
              (LeadsWithNotice (linesOf .utf8 "package a;\n".toUTF8.toList) →
                IsClean sampleUpdater.notice.toLines)) := by
  have hsome : (exec (sampleUpdater.update ⟨.relative, ["A.java"]⟩)
      ⟨sampleFiles, []⟩).1.toOption.isSome := by decide +kernel
  have hnotice : Notice.ofString? "/*\n * notice\n */" = some sampleUpdater.notice := by
    decide +kernel
  have hencode : ∃ header, Charset.encode .utf8 (Text.unlines sampleUpdater.notice.toLines) =
      .ok header := ⟨_, rfl⟩
  have hread : sampleFiles.read ⟨.relative, ["A.java"]⟩ = .ok "package a;\n".toUTF8.toList := by
    rfl
  obtain ⟨header, hheader⟩ := hencode
  rcases hfirst : exec (sampleUpdater.update ⟨.relative, ["A.java"]⟩) ⟨sampleFiles, []⟩ with
    ⟨fault | outcome, s₁⟩
  · rw [hfirst] at hsome
    cases hsome
  · obtain ⟨again, s₂, hagain, hiff⟩ := update_again_unchanged_iff hnotice (by decide +kernel)
      (by decide +kernel) hheader homeReached_sampleFiles hread hfirst
    exact ⟨outcome, s₁, again, s₂, rfl, hagain, hiff⟩

/-- A notice that is closed before its last line. -/
def uncleanUpdater : Updater := ⟨⟨["/*", "inner */", "*/"]⟩, {}⟩

/-- The last line of such a notice is left behind by every update, so that a second one changes the
file again. -/
theorem update_again_unclean :
    Notice.ofString? "/*\ninner */\n*/" = some uncleanUpdater.notice ∧
      uncleanUpdater.notice.isBlockComment ∧
      (exec (uncleanUpdater.update ⟨.relative, ["A.java"]⟩)
        ⟨sampleFiles, []⟩).1.toOption.map (·.status) = some .updated ∧
      (exec (uncleanUpdater.update ⟨.relative, ["A.java"]⟩)
        (exec (uncleanUpdater.update ⟨.relative, ["A.java"]⟩)
          ⟨sampleFiles, []⟩).2).1.toOption.map (·.status) = some .updated := by
  decide +kernel

end Letterhead.Updater
