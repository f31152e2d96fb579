import Letterhead.Proofs.FileSystem.Home
import Letterhead.Proofs.FileSystem.Stage
import Letterhead.Proofs.Session
import Letterhead.Update

/-!
# An update is a transaction

An update either changes the bytes of the one file it is for, or it changes nothing. Before the file
is moved aside nothing is touched. From then on the file system is the first one with two locations
set anew, and every way through the work, and the undoing of it, ends with the spare place empty.

## Main definitions

* `Updater.textOf`, `Updater.bytesOf` — reading and writing text, apart from any session
* `Updater.Rewrites` — a file system after a successful update

## Main results

* `Updater.update_cases` — an update either fails without effect or rewrites the file
* `Updater.update_transaction` — the same, with the report that the update gives
-/

namespace Letterhead

variable {s : Session} {fs : FileSystem} {target backup path : Path} {place spare : Location}
  {mode : Nat} {content : List UInt8} {work kept : FileSystem.Slot}

namespace Updater

variable {u : Updater}

/-! ### Text and bytes -/

/-- The text of some bytes, or why there is none. -/
def textOf (u : Updater) (bytes : List UInt8) : Except Fault Text :=
  if u.config.charsetName.toList.contains '\x00' then .error .nulInCharset
  else if bytes.isEmpty then .ok []
  else
    match Charset.ofName? u.config.charsetName with
    | some charset => .ok (charset.decode bytes)
    | none => .error (.unknownCharset u.config.charsetName)

/-- The bytes of a text, or why there are none. -/
def bytesOf (u : Updater) (t : Text) : Except Fault (List UInt8) :=
  match Charset.ofName? u.config.charsetName with
  | none => .error (.unknownCharset u.config.charsetName)
  | some charset =>
    match charset.encode t with
    | .ok bytes => .ok bytes
    | .error error => .error (.unencodable error)

theorem textOf_of_named {charset : Charset}
    (hnamed : Charset.ofName? u.config.charsetName = some charset)
    (hnul : '\x00' ∉ u.config.charsetName.toList) (content : List UInt8) :
    u.textOf content = .ok (charset.decode content) := by
  have hcontains : u.config.charsetName.toList.contains '\x00' = false := by simpa using hnul
  rw [textOf, hcontains, hnamed]
  cases content with
  | nil => cases charset <;> rfl
  | cons byte rest => rfl

theorem yields_decoded (u : Updater) (bytes : List UInt8) (fs : FileSystem) :
    Yields (u.decoded bytes) fs (u.textOf bytes) fs := by
  rw [decoded, textOf, refuseNul]
  split
  · exact Yields.throw.bind_error
  · refine Yields.pure.bind ?_
    split
    · exact .pure
    · rw [charset, charsetNamed]
      cases Charset.ofName? u.config.charsetName with
      | none => exact Yields.throw.bind_error
      | some charset => exact Yields.pure.bind .pure

theorem yields_encoded (u : Updater) (t : Text) (fs : FileSystem) :
    Yields (u.encoded t) fs (u.bytesOf t) fs := by
  rw [encoded, bytesOf, charset, charsetNamed]
  cases Charset.ofName? u.config.charsetName with
  | none => exact Yields.throw.bind_error
  | some charset =>
    refine Yields.pure.bind ?_
    simp only
    cases charset.encode t with
    | ok bytes => exact .pure
    | error error => exact .throw

theorem bytesOf_eq_ok_iff {t : Text} {bytes : List UInt8} :
    u.bytesOf t = .ok bytes ↔ ∃ charset, Charset.ofName? u.config.charsetName = some charset ∧
      charset.encode t = .ok bytes := by
  rw [bytesOf]
  cases Charset.ofName? u.config.charsetName with
  | none => simp
  | some charset => cases hencode : charset.encode t <;> simp [hencode]

theorem textOf_eq_ok {bytes : List UInt8} {t : Text} {charset : Charset}
    (h : u.textOf bytes = .ok t) (hcharset : Charset.ofName? u.config.charsetName = some charset) :
    t = charset.decode bytes := by
  rw [textOf, hcharset] at h
  split at h
  · cases h
  split at h
  · rename_i hempty
    obtain rfl := List.isEmpty_iff.mp hempty
    cases h
    cases charset <;> rfl
  · cases h
    rfl

/-! ### Before the file is touched -/

/-- The path that is written for `path`, in a file system. -/
def WrittenAs (fs : FileSystem) (path target : Path) : Prop :=
  fs.isLink path = .ok false ∧ target = path ∨
    fs.isLink path = .ok true ∧ fs.realPath path = .ok target

theorem yields_inspect {t : Text} (hnul : path.hasNul = false) (hread : fs.read path = .ok content)
    (htext : u.textOf content = .ok t) :
    Yields (u.inspect path) fs (.ok ⟨content, u.revisionOf path t⟩) fs := by
  have hdecoded := yields_decoded u content fs
  rw [htext] at hdecoded
  exact (Yields.askNamed hnul hread).bind (hdecoded.bind .pure)

/-- A file is read and scanned, or that fails without effect. -/
theorem yields_inspect_or_fails (u : Updater) (path : Path) (fs : FileSystem) :
    (∃ fault, Yields (u.inspect path) fs (.error fault) fs) ∨
      ∃ content t, path.hasNul = false ∧ fs.read path = .ok content ∧ u.textOf content = .ok t := by
  rcases yields_askNamed_or_fails path FileSystem.read fs with
    ⟨fault, h⟩ | ⟨content, hnul, hread, h⟩
  · exact Or.inl ⟨fault, h.bind_error⟩
  have hdecoded := yields_decoded u content fs
  cases htext : u.textOf content with
  | error fault =>
    rw [htext] at hdecoded
    exact Or.inl ⟨fault, h.bind hdecoded.bind_error⟩
  | ok t => exact Or.inr ⟨content, t, hnul, hread, htext⟩

/-- The outcome for a file that was read and scanned, when its revision has the bytes `rendered`. -/
def report (path : Path) (i : Inspection) (rendered : List UInt8) : Outcome where
  path := path.toString
  status := if i.revision.changed && rendered != i.content then .updated else .unchanged
  diagnostics := i.revision.diagnostics

theorem yields_outcome (i : Inspection) {rendered : List UInt8}
    (hrendered : u.bytesOf i.revision.render = .ok rendered) (path : Path) (fs : FileSystem) :
    Yields (u.outcome path i) fs (.ok (report path i rendered)) fs := by
  have hencoded := yields_encoded u i.revision.render fs
  rw [hrendered] at hencoded
  exact hencoded.bind .pure

theorem yields_outcome_error (i : Inspection) {fault : Fault}
    (hrendered : u.bytesOf i.revision.render = .error fault) (path : Path) (fs : FileSystem) :
    Yields (u.outcome path i) fs (.error fault) fs := by
  have hencoded := yields_encoded u i.revision.render fs
  rw [hrendered] at hencoded
  exact hencoded.bind_error

theorem yields_targetOf (hwritten : WrittenAs fs path target) (hnul : path.hasNul = false) :
    Yields (targetOf path) fs (.ok target) fs := by
  rcases hwritten with ⟨hlink, rfl⟩ | ⟨hlink, hreal⟩
  · exact (Yields.ask hlink).bind .pure
  · exact (Yields.ask hlink).bind (.askNamed hnul hreal)

theorem yields_targetOf_or_fails (path : Path) (fs : FileSystem) :
    (∃ fault, Yields (targetOf path) fs (.error fault) fs) ∨
      ∃ target, WrittenAs fs path target := by
  rcases yields_ask_or_fails path FileSystem.isLink fs with ⟨fault, h⟩ | ⟨link, hlink, h⟩
  · exact Or.inl ⟨fault, h.bind_error⟩
  cases link with
  | false => exact Or.inr ⟨path, Or.inl ⟨hlink, rfl⟩⟩
  | true =>
    rcases yields_askNamed_or_fails path FileSystem.realPath fs with
      ⟨fault, h'⟩ | ⟨target, -, hreal, -⟩
    · exact Or.inl ⟨fault, h.bind h'⟩
    · exact Or.inr ⟨target, Or.inr ⟨hlink, hreal⟩⟩

end Updater

/-! ### Work between the two places -/

section Bracket

variable (b : fs.Bracket target backup place spare mode content)

include b

theorem yields_replaceFile_back (work : FileSystem.Slot) (f : Nat × List UInt8) :
    Yields (replaceFile backup target) (fs.stage place spare work (some f)) (.ok ⟨⟩)
      (fs.stage place spare (some f) none) :=
  .changeBoth b.backup_noNul b.target_noNul (b.rename_back work f)

/-- Whatever is left of the backup is removed. -/
theorem yields_discard (work kept : FileSystem.Slot) :
    Yields (discard backup) (fs.stage place spare work kept) (.ok ⟨⟩)
      (fs.stage place spare work none) := by
  refine (Yields.ask (b.holds work kept)).bind ?_
  cases kept with
  | none => exact .pure
  | some f => exact .change b.backup_noNul (b.unlink work f)

/-- A fault brings the file back. -/
theorem yields_restore {α : Type} (work : FileSystem.Slot) (f : Nat × List UInt8) (fault : Fault) :
    Yields (restore target backup fault : SessionM α) (fs.stage place spare work (some f))
      (.error fault) (fs.stage place spare (some f) none) :=
  Yields.note.bind ((yields_replaceFile_back b work f).bind .throw)

/-- The file is made before its text is turned into bytes, so a text without bytes leaves it empty. -/
theorem yields_writeText (u : Updater) (t : Text) (kept : FileSystem.Slot) :
    match u.bytesOf t with
    | .ok bytes => Yields (u.writeText target t) (fs.stage place spare none kept) (.ok ⟨⟩)
      (fs.stage place spare (some (FileSystem.newFileMode, bytes)) kept)
    | .error fault => Yields (u.writeText target t) (fs.stage place spare none kept) (.error fault)
      (fs.stage place spare (some (FileSystem.newFileMode, [])) kept) := by
  have hmade : Yields (writeFile target []) (fs.stage place spare none kept) (.ok ⟨⟩)
      (fs.stage place spare (some (FileSystem.newFileMode, [])) kept) :=
    .change b.target_noNul (b.write (by simp) kept [])
  have hencoded := u.yields_encoded t (fs.stage place spare (some (FileSystem.newFileMode, [])) kept)
  cases hbytes : u.bytesOf t with
  | error fault =>
    rw [hbytes] at hencoded
    exact hmade.bind hencoded.bind_error
  | ok bytes =>
    rw [hbytes] at hencoded
    exact hmade.bind (hencoded.bind (.change b.target_noNul (b.write (by simp) kept bytes)))

/-- A changed file is written and given its bits, an unchanged one comes back; in either case only
then is the backup gone. A text without bytes brings the file back as well. -/
theorem yields_install (u : Updater) (i : Inspection) :
    match i.revision.changed, u.bytesOf i.revision.render with
    | true, .error fault =>
      Yields (tryCatch (u.install i target backup) (restore target backup))
        (fs.stage place spare none (some (mode, content))) (.error fault)
        (fs.stage place spare (some (mode, content)) none)
    | true, .ok bytes =>
      Yields (tryCatch (u.install i target backup) (restore target backup))
        (fs.stage place spare none (some (mode, content))) (.ok ⟨⟩)
        (fs.stage place spare (some (mode, bytes)) (some (mode, content)))
    | false, _ =>
      Yields (tryCatch (u.install i target backup) (restore target backup))
        (fs.stage place spare none (some (mode, content))) (.ok ⟨⟩)
        (fs.stage place spare (some (mode, content)) none) := by
  have hwrite := yields_writeText b u i.revision.render (some (mode, content))
  rw [Updater.install]
  cases hchanged : i.revision.changed with
  | false => exact (yields_replaceFile_back b none (mode, content)).tryCatch
  | true =>
    rw [if_pos rfl]
    cases hbytes : u.bytesOf i.revision.render with
    | error fault =>
      rw [hbytes] at hwrite
      exact hwrite.bind_error.tryCatch_error (yields_restore b _ _ fault)
    | ok bytes =>
      rw [hbytes] at hwrite
      refine (hwrite.bind (.changeBoth b.backup_noNul b.target_noNul ?_)).tryCatch
      exact b.copyMode FileSystem.newFileMode bytes (mode, content)

end Bracket

/-! ### The whole update -/

theorem yields_refuseExisting (b : fs.Bracket target backup place spare mode content) :
    Yields (refuseExisting backup) fs (.ok ⟨⟩) fs := by
  have hholds : fs.holds backup = .ok false :=
    FileSystem.test_of_absent (by decide) b.locate_backup b.node?_spare
  have hlink : fs.isLink backup = .ok false :=
    FileSystem.test_of_absent (by decide) b.locate_backup b.node?_spare
  exact (Yields.ask hholds).bind ((Yields.ask hlink).bind .pure)

section WithBackup

variable {α : Type} {suffix : String} {work : Path → SessionM α}
  (b : fs.Bracket target backup place spare mode content)
  (hbackup : target.backup suffix = .ok backup)

include b hbackup

theorem yields_withBackup_of_aside {r : Except Fault α} {fs' : FileSystem}
    (h : Yields (do
      let result ← tryCatch (work backup) (restore target backup)
      discard backup
      pure result) (fs.stage place spare none (some (mode, content))) r fs') :
    Yields (withBackup target suffix work) fs r fs' := by
  have haside : Yields (replaceFile target backup) fs (.ok ⟨⟩)
      (fs.stage place spare none (some (mode, content))) :=
    .changeBoth b.target_noNul b.backup_noNul b.rename_aside
  rw [withBackup, backupOf, hbackup]
  exact Yields.pure.bind ((yields_refuseExisting b).bind (haside.bind h))

/-- Work that leaves a file in the first one's place has no other effect. -/
theorem yields_withBackup {bytes : List UInt8} {kept : FileSystem.Slot} {a : α}
    (h : Yields (tryCatch (work backup) (restore target backup))
      (fs.stage place spare none (some (mode, content))) (.ok a)
      (fs.stage place spare (some (mode, bytes)) kept)) :
    Yields (withBackup target suffix work) fs (.ok a) (fs.put place (.file mode bytes)) := by
  rw [← FileSystem.stage_eq_put b.spare_ne_nil b.place_ne_spare b.node?_spare]
  exact yields_withBackup_of_aside b hbackup (h.bind ((yields_discard b _ kept).bind .pure))

/-- Work that fails after the file has come back has no effect. -/
theorem yields_withBackup_error {fault : Fault}
    (h : Yields (tryCatch (work backup) (restore target backup))
      (fs.stage place spare none (some (mode, content))) (.error fault)
      (fs.stage place spare (some (mode, content)) none)) :
    Yields (withBackup target suffix work) fs (.error fault) fs := by
  rw [← b.eq_stage] at h
  exact yields_withBackup_of_aside b hbackup h.bind_error

end WithBackup

/-- If a backup is not refused, nothing is at its path. -/
theorem yields_refuseExisting_or_fails (backup : Path) (fs : FileSystem) :
    (∃ fault, Yields (refuseExisting backup) fs (.error fault) fs) ∨
      fs.holds backup = .ok false ∧ fs.isLink backup = .ok false ∧
        Yields (refuseExisting backup) fs (.ok ⟨⟩) fs := by
  rcases yields_ask_or_fails backup FileSystem.holds fs with ⟨fault, h⟩ | ⟨holds, hholds, h⟩
  · exact Or.inl ⟨fault, h.bind_error⟩
  cases holds with
  | true => exact Or.inl ⟨.backupExists backup, h.bind (Yields.throw.bind_error)⟩
  | false =>
    rcases yields_ask_or_fails backup FileSystem.isLink fs with ⟨fault, h'⟩ | ⟨link, hlink, h'⟩
    · exact Or.inl ⟨fault, h.bind (h'.bind_error)⟩
    cases link with
    | true => exact Or.inl ⟨.backupExists backup, h.bind (h'.bind .throw)⟩
    | false => exact Or.inr ⟨hholds, hlink, h.bind (h'.bind .pure)⟩

/-- Work under a backup fails before it begins and without effect, or the file can be moved aside
and back. -/
theorem bracket_or_fails {α : Type} (hhome : fs.HomeReached)
    (hplace : ∀ other, fs.locate .entry target = .ok other → other = place)
    (hnode : fs.node? place = some (.file mode content)) (suffix : String)
    (work : Path → SessionM α) :
    (∃ fault, Yields (withBackup target suffix work) fs (.error fault) fs) ∨
      ∃ backup spare, target.backup suffix = .ok backup ∧
        fs.Bracket target backup place spare mode content := by
  rw [withBackup, backupOf]
  cases hbackup : target.backup suffix with
  | error error => exact Or.inl ⟨.badName error, Yields.throw.bind_error⟩
  | ok backup =>
    have hnamed : Yields (pure backup : SessionM Path) fs (.ok backup) fs := .pure
    rcases yields_refuseExisting_or_fails backup fs with ⟨fault, h⟩ | ⟨hholds, hlink, h⟩
    · exact Or.inl ⟨fault, hnamed.bind h.bind_error⟩
    rcases yields_changeBoth_or_fails target backup FileSystem.rename fs with
      ⟨fault, h'⟩ | ⟨fs', htargetNul, hbackupNul, hrename, -⟩
    · exact Or.inl ⟨fault, hnamed.bind (h.bind h'.bind_error)⟩
    -- A rename that succeeds has looked both places up and found nothing at the second.
    obtain ⟨other, hother⟩ := FileSystem.exists_locate_of_rename hrename
    obtain rfl := hplace other hother
    obtain ⟨spare, b⟩ := FileSystem.bracket_of_rename hhome htargetNul hbackupNul hother hnode
      hholds hlink hrename
    exact Or.inr ⟨backup, spare, rfl, b⟩

namespace Updater

variable {u : Updater} {t : Text}

/-- All that an update of a file needs to get as far as moving it aside. -/
structure Ready (u : Updater) (fs : FileSystem) (path target backup : Path)
    (place spare : Location) (mode : Nat) (content : List UInt8) (t : Text) : Prop where
  noNul : path.hasNul = false
  found : fs.find .target path = .ok (place, .file mode content)
  readable : (Node.file mode content).isReadableFile
  decoded : u.textOf content = .ok t
  written : WrittenAs fs path target
  named : ∃ suffix, u.config.backupSuffix = some suffix ∧ target.backup suffix = .ok backup
  bracket : fs.Bracket target backup place spare mode content

/-- The content of a file once its revision has been put in place. -/
def newContent (i : Inspection) (rendered : List UInt8) : List UInt8 :=
  if i.revision.changed then rendered else i.content

theorem report_status (path : Path) (i : Inspection) (rendered : List UInt8) :
    (report path i rendered).status =
      if newContent i rendered = i.content then .unchanged else .updated := by
  rw [report, newContent]
  cases i.revision.changed with
  | false => simp
  | true => by_cases h : rendered = i.content <;> simp [h]

theorem Ready.read (h : u.Ready fs path target backup place spare mode content t) :
    fs.read path = .ok content :=
  FileSystem.read_eq_ok_iff.mpr ⟨place, mode, h.found, h.readable⟩

/-- A file that is ready is rewritten, unless its new text has no bytes: then nothing changes. -/
theorem Ready.update (h : u.Ready fs path target backup place spare mode content t) :
    match u.bytesOf (u.revisionOf path t).render with
    | .error fault => Yields (u.update path) fs (.error fault) fs
    | .ok rendered =>
      Yields (u.update path) fs (.ok (report path ⟨content, u.revisionOf path t⟩ rendered))
        (fs.put place (.file mode (newContent ⟨content, u.revisionOf path t⟩ rendered))) := by
  have b := h.bracket
  obtain ⟨suffix, hsuffix, hbackup⟩ := h.named
  have hinspect := yields_inspect h.noNul h.read h.decoded
  have htarget := yields_targetOf h.written h.noNul
  have hinstall := yields_install b u ⟨content, u.revisionOf path t⟩
  -- Whatever the work under the backup comes to, the parts before it come to these values.
  have hstart {r : Except Fault Outcome} {fs' : FileSystem}
      (hrest : Yields (do
        withBackup target suffix (u.install ⟨content, u.revisionOf path t⟩ target)
        u.outcome path ⟨content, u.revisionOf path t⟩) fs r fs') :
      Yields (u.update path) fs r fs' := by
    rw [Updater.update, backupSuffix, hsuffix]
    exact hinspect.bind (htarget.bind (Yields.pure.bind hrest))
  cases hrendered : u.bytesOf (u.revisionOf path t).render with
  | error fault =>
    refine hstart ?_
    cases hchanged : (u.revisionOf path t).changed with
    | true =>
      simp only [hchanged, hrendered] at hinstall
      exact (yields_withBackup_error b hbackup hinstall).bind_error
    | false =>
      -- The fault comes only with the report, when the file is back in its place.
      simp only [hchanged] at hinstall
      have hback := yields_withBackup b hbackup hinstall
      rw [b.put_self] at hback
      exact hback.bind (yields_outcome_error ⟨content, u.revisionOf path t⟩ hrendered path fs)
  | ok rendered =>
    refine hstart (Yields.bind (a := ⟨⟩) ?_
      (yields_outcome ⟨content, u.revisionOf path t⟩ hrendered path _))
    rw [newContent]
    cases hchanged : (u.revisionOf path t).changed with
    | true =>
      simp only [hchanged, hrendered] at hinstall
      exact yields_withBackup b hbackup hinstall
    | false =>
      simp only [hchanged] at hinstall
      exact yields_withBackup b hbackup hinstall

/-- A path that is written for another one denotes the same file. -/
theorem WrittenAs.locate (hhome : fs.HomeReached) (h : WrittenAs fs path target)
    (hnul : path.hasNul = false)
    (hfound : fs.find .target path = .ok (place, .file mode content)) {other : Location}
    (hlocate : fs.locate .entry target = .ok other) : other = place := by
  have htarget := FileSystem.find_eq_ok_iff.mp hfound
  rcases h with ⟨hlink, rfl⟩ | ⟨-, hreal⟩
  · -- The path itself is written, and its last name is not that of a link.
    obtain ⟨entry, hentry, rfl | ⟨text, htext⟩⟩ := FileSystem.exists_locate_entry htarget.1
    · exact Except.ok.inj (hlocate.symm.trans hentry)
    · rw [FileSystem.isLink, FileSystem.test, hnul, FileSystem.find, hentry] at hlink
      simp [htext, Node.isLink] at hlink
  · -- A link is written at the place it leads to, which taken as a path leads to itself.
    rw [FileSystem.realPath, htarget.1] at hreal
    obtain rfl : ⟨.root, place⟩ = target := Except.ok.inj hreal
    exact (FileSystem.reached_of_locate hhome htarget.1).locate_eq hlocate

/-- An update fails without effect, unless it gets as far as moving the file aside. -/
theorem ready_or_fails (u : Updater) (hhome : fs.HomeReached) (path : Path) :
    (∃ fault, Yields (u.update path) fs (.error fault) fs) ∨
      ∃ target backup place spare mode content t,
        u.Ready fs path target backup place spare mode content t := by
  rcases yields_inspect_or_fails u path fs with ⟨fault, h⟩ | ⟨content, t, hnul, hread, htext⟩
  · exact Or.inl ⟨fault, by rw [Updater.update]; exact h.bind_error⟩
  have hinspect := yields_inspect hnul hread htext
  rcases yields_targetOf_or_fails path fs with ⟨fault, h⟩ | ⟨target, hwritten⟩
  · exact Or.inl ⟨fault, by rw [Updater.update]; exact hinspect.bind h.bind_error⟩
  have htarget := yields_targetOf hwritten hnul
  cases hsuffix : u.config.backupSuffix with
  | none =>
    refine Or.inl ⟨.noBackupSuffix, ?_⟩
    rw [Updater.update, backupSuffix, hsuffix]
    exact hinspect.bind (htarget.bind Yields.throw.bind_error)
  | some suffix =>
    obtain ⟨place, mode, hfound, hreadable⟩ := FileSystem.read_eq_ok_iff.mp hread
    rcases bracket_or_fails hhome (fun other => hwritten.locate hhome hnul hfound)
      (FileSystem.find_eq_ok_iff.mp hfound).2 suffix
      (u.install ⟨content, u.revisionOf path t⟩ target) with ⟨fault, h⟩ | ⟨backup, spare, hbackup, b⟩
    · refine Or.inl ⟨fault, ?_⟩
      rw [Updater.update, backupSuffix, hsuffix]
      exact hinspect.bind (htarget.bind (Yields.pure.bind h.bind_error))
    · exact Or.inr ⟨target, backup, place, spare, mode, content, t, hnul, hfound, hreadable, htext,
        hwritten, ⟨suffix, hsuffix, hbackup⟩, b⟩

/-- What a successful update makes of a file system: the file that the path denotes has another
content, or the same, and all else is as before. -/
structure Rewrites (u : Updater) (path : Path) (fs fs' : FileSystem) (outcome : Outcome)
    (charset : Charset) (place : Location) (mode : Nat) (old new : List UInt8) : Prop where
  named : Charset.ofName? u.config.charsetName = some charset
  found : fs.find .target path = .ok (place, .file mode old)
  files : fs' = fs.put place (.file mode new)
  content :
    if (u.revisionOf path (charset.decode old)).changed then
      charset.encode (u.revisionOf path (charset.decode old)).render = .ok new
    else new = old
  noBackup : ∃ suffix target backup, u.config.backupSuffix = some suffix ∧
    WrittenAs fs path target ∧ target.backup suffix = .ok backup ∧
      fs'.find .entry backup = .error .noEntry
  status : outcome.status = if new = old then .unchanged else .updated

theorem Ready.rewrites (h : u.Ready fs path target backup place spare mode content t)
    {rendered : List UInt8}
    (hrendered : u.bytesOf (u.revisionOf path t).render = .ok rendered) :
    ∃ charset new, u.Rewrites path fs (fs.put place (.file mode new))
      (report path ⟨content, u.revisionOf path t⟩ rendered) charset place mode content new ∧
        new = newContent ⟨content, u.revisionOf path t⟩ rendered := by
  have b := h.bracket
  obtain ⟨charset, hcharset, hencode⟩ := bytesOf_eq_ok_iff.mp hrendered
  obtain rfl := textOf_eq_ok h.decoded hcharset
  obtain ⟨suffix, hsuffix, hbackup⟩ := h.named
  refine ⟨charset, _, ⟨hcharset, h.found, rfl, ?_, ⟨suffix, target, backup, hsuffix, h.written,
    hbackup, ?_⟩, report_status ..⟩, rfl⟩
  · rw [newContent]
    split
    · exact hencode
    · rfl
  · rw [← FileSystem.stage_eq_put b.spare_ne_nil b.place_ne_spare b.node?_spare, FileSystem.find,
      b.locate_backup_stage]
    simp only
    rw [b.node?_stage_spare]
    rfl

/-- An update of a file is a transaction: it fails without effect, or it rewrites the file. -/
theorem update_cases (u : Updater) (hhome : fs.HomeReached) (path : Path) :
    (∃ fault, Yields (u.update path) fs (.error fault) fs) ∨
      ∃ fs' outcome charset place mode old new, Yields (u.update path) fs (.ok outcome) fs' ∧
        u.Rewrites path fs fs' outcome charset place mode old new := by
  rcases u.ready_or_fails hhome path with
    hfails | ⟨target, backup, place, spare, mode, content, t, h⟩
  · exact Or.inl hfails
  have hupdate := h.update
  cases hrendered : u.bytesOf (u.revisionOf path t).render with
  | error fault =>
    rw [hrendered] at hupdate
    exact Or.inl ⟨fault, hupdate⟩
  | ok rendered =>
    rw [hrendered] at hupdate
    obtain ⟨charset, new, hrewrites, rfl⟩ := h.rewrites hrendered
    exact Or.inr ⟨_, _, charset, place, mode, content, _, hupdate, hrewrites⟩

/-- Whatever an update of a file comes to, nothing is left half done: after a fault the files are as
they were, and after an outcome only the bytes of the one file may differ, as the outcome says. -/
theorem update_transaction (u : Updater) (path : Path) (s : Session)
    (hhome : s.files.HomeReached) :
    match exec (u.update path) s with
    | (.error _, s') => s'.files = s.files
    | (.ok outcome, s') => ∃ charset place mode old new,
      u.Rewrites path s.files s'.files outcome charset place mode old new := by
  rcases u.update_cases hhome path with
    ⟨fault, h⟩ | ⟨fs', outcome, charset, place, mode, old, new, h, hrewrites⟩
  · obtain ⟨s', hexec, hfiles⟩ := h.exec_eq
    rw [hexec]
    exact hfiles
  · obtain ⟨s', hexec, rfl⟩ := h.exec_eq
    rw [hexec]
    exact ⟨charset, place, mode, old, new, hrewrites⟩

/-- A working directory with one file in it, which begins with a package line. -/
def sampleFiles : FileSystem :=
  (FileSystem.empty ["work"]).put ["work", "A.java"] (.file 0o640 "package a;\n".toUTF8.toList)

/-- A notice of three lines, with the usual settings. -/
def sampleUpdater : Updater := ⟨⟨["/*", " * notice", " */"]⟩, {}⟩

theorem homeReached_sampleFiles : sampleFiles.HomeReached := by
  have hname : FileSystem.IsName "work" := ⟨by decide, by decide, by decide, by decide⟩
  refine (FileSystem.homeReached_empty fun name h => ?_).put (by decide +kernel) _
  rw [List.mem_singleton.mp h]
  exact hname

theorem update_transaction_sample :
    sampleFiles.HomeReached ∧
      (exec (sampleUpdater.update ⟨.relative, ["A.java"]⟩) ⟨sampleFiles, []⟩).1.toOption.isSome ∧
        match exec (sampleUpdater.update ⟨.relative, ["A.java"]⟩) ⟨sampleFiles, []⟩ with
        | (.error _, s') => s'.files = sampleFiles
        | (.ok outcome, s') => ∃ charset place mode old new,
          sampleUpdater.Rewrites ⟨.relative, ["A.java"]⟩ sampleFiles s'.files outcome charset place
            mode old new :=
  ⟨homeReached_sampleFiles, by decide +kernel,
    update_transaction sampleUpdater _ ⟨sampleFiles, []⟩ homeReached_sampleFiles⟩

end Updater

end Letterhead
