import Letterhead.Proofs.FileSystem.Spelling
import Letterhead.Proofs.Update.Check
import Letterhead.Proofs.Update.Rerun

/-!
# Updating a file under another name

What an update does to a file does not depend on how its path is spelt, nor on what other files
hold: the name of the file goes into remarks and messages only. It does depend on whether the path
can be looked up, and the backup beside it, so both spellings must lead to the file and to its
backup. A check asks for the file alone.

## Main definitions

* `Updater.Respelt` — two paths that are looked up alike, with their backups

## Main results

* `revise_source` — the name of a file does not change what becomes of its lines
* `Updater.Ready.respell` — a file is ready to be updated under both names or neither
* `Updater.update_respelt` — an update under another name, in a file system of the same shape
* `Updater.verdict_respelt` — the verdict on a file under another name
-/

namespace Letterhead

/-- What becomes of the lines of a file does not depend on the name of the file. -/
theorem revise_source (notice : List Text) (source source' : String) (lines : List Text) :
    (revise notice source lines).lines = (revise notice source' lines).lines ∧
      (revise notice source lines).changed = (revise notice source' lines).changed := by
  cases region lines with
  | blank hblanks =>
    obtain ⟨hlines, hchanged, -⟩ := revise_blank hblanks notice source
    obtain ⟨hlines', hchanged', -⟩ := revise_blank hblanks notice source'
    exact ⟨hlines.trans hlines'.symm, hchanged.trans hchanged'.symm⟩
  | @package blanks rest line hblanks hline =>
    obtain ⟨hlines, hchanged, -⟩ := revise_package hblanks hline notice source rest
    obtain ⟨hlines', hchanged', -⟩ := revise_package hblanks hline notice source' rest
    exact ⟨hlines.trans hlines'.symm, hchanged.trans hchanged'.symm⟩
  | @header blanks body rest opener closer hblanks hheader =>
    obtain ⟨hlines, hchanged, -⟩ := revise_header hblanks hheader notice source rest
    obtain ⟨hlines', hchanged', -⟩ := revise_header hblanks hheader notice source' rest
    exact ⟨hlines.trans hlines'.symm, hchanged.trans hchanged'.symm⟩
  | unclosed hblanks hopen hbody =>
    obtain ⟨hlines, hchanged, -⟩ := revise_unclosed hblanks hopen hbody notice source
    obtain ⟨hlines', hchanged', -⟩ := revise_unclosed hblanks hopen hbody notice source'
    exact ⟨hlines.trans hlines'.symm, hchanged.trans hchanged'.symm⟩
  | @foreign blanks rest line hblanks hline hopen hpackage =>
    obtain ⟨hlines, hchanged, -⟩ := revise_foreign hblanks hline hopen hpackage notice source rest
    obtain ⟨hlines', hchanged', -⟩ :=
      revise_foreign hblanks hline hopen hpackage notice source' rest
    exact ⟨hlines.trans hlines'.symm, hchanged.trans hchanged'.symm⟩

namespace Updater

open FileSystem (SameShape Alike)

variable {u : Updater} {fs fs' : FileSystem} {p q target backup : Path} {place spare : Location}
  {mode : Nat} {content : List UInt8} {t : Text}

/-- Two paths that are looked up alike. If they are not those of a link, it is beside them that the
backups are, which are looked up alike as well. -/
structure Respelt (u : Updater) (fs : FileSystem) (p q : Path) : Prop where
  alike : fs.Alike p q
  forth : fs.isLink p = .ok false → ∀ suffix, u.config.backupSuffix = some suffix →
    ∀ backup, p.backup suffix = .ok backup →
      ∃ other, q.backup suffix = .ok other ∧ fs.Alike backup other
  back : fs.isLink p = .ok false → ∀ suffix, u.config.backupSuffix = some suffix →
    ∀ backup, q.backup suffix = .ok backup →
      ∃ other, p.backup suffix = .ok other ∧ fs.Alike backup other

theorem Respelt.symm (h : u.Respelt fs p q) : u.Respelt fs q p where
  alike := h.alike.symm
  forth hlink := h.back (h.alike.isLink ▸ hlink)
  back hlink := h.forth (h.alike.isLink ▸ hlink)

theorem Respelt.sameShape (h : u.Respelt fs p q) (hshape : SameShape fs fs') :
    u.Respelt fs' p q where
  alike := h.alike.sameShape hshape
  forth hlink suffix hsuffix backup hbackup := by
    rw [hshape.isLink] at hlink
    obtain ⟨other, hother, halike⟩ := h.forth hlink suffix hsuffix backup hbackup
    exact ⟨other, hother, halike.sameShape hshape⟩
  back hlink suffix hsuffix backup hbackup := by
    rw [hshape.isLink] at hlink
    obtain ⟨other, hother, halike⟩ := h.back hlink suffix hsuffix backup hbackup
    exact ⟨other, hother, halike.sameShape hshape⟩

/-- What is ready to be updated under one name is so under another. -/
theorem Ready.respell (h : u.Ready fs p target backup place spare mode content t)
    (hrespelt : u.Respelt fs p q) :
    ∃ target backup, u.Ready fs q target backup place spare mode content t := by
  have halike := hrespelt.alike
  have hfound : fs.find .target q = .ok (place, .file mode content) := by
    rw [halike.find (by decide), h.found]
  have hnul : q.hasNul = false := halike.hasNul.trans h.noNul
  rcases h.written with ⟨hlink, rfl⟩ | ⟨hlink, hreal⟩
  · -- The path itself is written, and its backup is the one beside the other spelling.
    obtain ⟨suffix, hsuffix, hbackup⟩ := h.named
    obtain ⟨other, hother, hbackups⟩ := hrespelt.forth hlink suffix hsuffix backup hbackup
    have b := h.bracket
    exact ⟨q, other, hnul, hfound, h.readable, h.decoded,
      Or.inl ⟨halike.isLink.trans hlink, rfl⟩, ⟨suffix, hsuffix, hother⟩,
      { b with
        target_noNul := hnul
        backup_noNul := hbackups.hasNul.trans b.backup_noNul
        locate_target := (halike.locate _ (by decide)).trans b.locate_target
        locate_backup := (hbackups.locate _ (by decide)).trans b.locate_backup
        target_noDots := halike.endsInDots.trans b.target_noDots
        backup_noDots := hbackups.endsInDots.trans b.backup_noDots }⟩
  · -- Both spellings are of the same link, and it is what the link leads to that is written.
    exact ⟨target, backup, hnul, hfound, h.readable, h.decoded,
      Or.inr ⟨halike.isLink.trans hlink, halike.realPath.trans hreal⟩, h.named, h.bracket⟩

/-- What is ready in one file system is ready under another name in one of the same shape, if the
file holds the same there. -/
theorem Ready.reshape_respell (h : u.Ready fs p target backup place spare mode content t)
    (hshape : SameShape fs fs') (hrespelt : u.Respelt fs p q)
    (hnode : fs'.node? place = fs.node? place) :
    ∃ target backup, u.Ready fs' q target backup place spare mode content t :=
  (h.reshape hshape (hnode.trans h.bracket.node?_place) h.decoded).respell
    (hrespelt.sameShape hshape)

theorem newContent_source (p q : Path) (content rendered : List UInt8) (t : Text) :
    newContent ⟨content, u.revisionOf p t⟩ rendered =
      newContent ⟨content, u.revisionOf q t⟩ rendered := by
  have hchanged : (u.revisionOf p t).changed = (u.revisionOf q t).changed :=
    (revise_source u.notice.toLines _ _ _).2
  rw [newContent, newContent, hchanged]

/-- An update under another name, in a file system of the same shape where the file holds the same,
fails as well, or gives the file the same new content and reports the same. -/
theorem update_respelt (hhome : fs.HomeReached) (hshape : SameShape fs fs')
    (hrespelt : u.Respelt fs p q)
    (hnode : ∀ place, fs.locate .target p = .ok place → fs'.node? place = fs.node? place) :
    (∃ fault fault', Yields (u.update p) fs (.error fault) fs ∧
      Yields (u.update q) fs' (.error fault') fs') ∨
    ∃ o o' place node, fs.locate .target p = .ok place ∧ place ≠ [] ∧ o.status = o'.status ∧
      Yields (u.update p) fs (.ok o) (fs.put place node) ∧
        Yields (u.update q) fs' (.ok o') (fs'.put place node) := by
  by_cases hready : ∃ target backup place spare mode content t,
      u.Ready fs p target backup place spare mode content t
  · obtain ⟨target, backup, place, spare, mode, content, t, h⟩ := hready
    have hplace := (FileSystem.find_eq_ok_iff.mp h.found).1
    obtain ⟨target', backup', h'⟩ := h.reshape_respell hshape hrespelt (hnode place hplace)
    have hrender : (u.revisionOf q t).render = (u.revisionOf p t).render :=
      congrArg Text.unlines (revise_source u.notice.toLines _ _ _).1
    have hupdate := h.update
    have hupdate' := h'.update
    rw [hrender] at hupdate'
    cases hrendered : u.bytesOf (u.revisionOf p t).render with
    | error fault =>
      rw [hrendered] at hupdate hupdate'
      exact Or.inl ⟨fault, fault, hupdate, hupdate'⟩
    | ok rendered =>
      rw [hrendered] at hupdate hupdate'
      simp only [newContent_source q p] at hupdate'
      refine Or.inr ⟨_, _, place, _, hplace, h.bracket.place_ne_nil, ?_, hupdate, hupdate'⟩
      rw [report_status, report_status, newContent_source p q]
  · left
    obtain ⟨fault, hfails⟩ := (u.ready_or_fails hhome p).resolve_right hready
    -- Were the file ready under the other name, it would be ready under this one.
    have hready' : ¬ ∃ target backup place spare mode content t,
        u.Ready fs' q target backup place spare mode content t := by
      rintro ⟨target, backup, place, spare, mode, content, t, h⟩
      have hplace : fs.locate .target p = .ok place := by
        rw [← hrespelt.alike.locate .target (by decide), ← hshape.locate]
        exact (FileSystem.find_eq_ok_iff.mp h.found).1
      obtain ⟨target', backup', h'⟩ := h.reshape_respell hshape.symm
        (hrespelt.sameShape hshape).symm (hnode place hplace).symm
      exact hready ⟨target', backup', place, spare, mode, content, t, h'⟩
    obtain ⟨fault', hfails'⟩ :=
      (u.ready_or_fails (hshape.homeReached hhome) q).resolve_right hready'
    exact ⟨fault, fault', hfails, hfails'⟩

/-- An update fails where the path of the backup would be too long. -/
theorem update_fails_of_long (hhome : fs.HomeReached) (hlink : fs.isLink p = .ok false)
    {suffix : String} (hsuffix : u.config.backupSuffix = some suffix)
    (hlong : FileSystem.pathLimit ≤ p.toString.utf8ByteSize + suffix.utf8ByteSize) :
    ∃ fault, Yields (u.update p) fs (.error fault) fs := by
  refine (u.ready_or_fails hhome p).resolve_right ?_
  rintro ⟨target, backup, place, spare, mode, content, t, h⟩
  have hbackup : p.backup suffix = .ok backup := by
    obtain ⟨suffix', hsuffix', hnamed⟩ := h.named
    obtain rfl := Option.some.inj (hsuffix.symm.trans hsuffix')
    rcases h.written with ⟨-, rfl⟩ | ⟨hlink', -⟩
    · exact hnamed
    · rw [hlink] at hlink'
      cases hlink'
  -- A file that is ready to be updated has a backup that can be looked up.
  have hlocate : fs.locate .entry backup ≠ .error .nameTooLong := by
    rw [h.bracket.locate_backup]
    exact nofun
  have hshort := FileSystem.lt_pathLimit_of_locate hlocate
  rw [Path.toString_backup hbackup, String.utf8ByteSize_append] at hshort
  omega

/-- The file has the same content under another name, or cannot be read under either. -/
theorem contentAt_respelt (h : fs.Alike p q) :
    (∃ fault fault', contentAt fs p = .error fault ∧ contentAt fs q = .error fault') ∨
      contentAt fs q = contentAt fs p := by
  rw [contentAt, contentAt, FileSystem.read, FileSystem.read, h.hasNul, h.find (by decide)]
  by_cases hnul : p.hasNul = true
  · rw [if_pos hnul, if_pos hnul]
    exact Or.inr rfl
  · rw [if_neg hnul, if_neg hnul]
    split
    · exact Or.inr rfl
    · exact Or.inl ⟨_, _, rfl, rfl⟩

/-- The verdict on a file that can be read. -/
theorem verdict_of_contentAt (h : contentAt fs p = .ok content) :
    u.verdict fs p = (u.textOf content).bind fun t =>
      (u.bytesOf (u.revisionOf p t).render).map (report p ⟨content, u.revisionOf p t⟩) := by
  rw [verdict, inspection, h]
  change ((u.textOf content).bind fun t => .ok ⟨content, u.revisionOf p t⟩).bind
    (fun i => (u.bytesOf i.revision.render).bind fun rendered => .ok (report p i rendered)) = _
  cases u.textOf content with
  | error fault => rfl
  | ok t =>
    change (u.bytesOf (u.revisionOf p t).render).bind _ = Except.map _ _
    cases u.bytesOf (u.revisionOf p t).render <;> rfl

theorem verdict_of_contentAt_error {fault : Fault} (h : contentAt fs p = .error fault) :
    u.verdict fs p = .error fault := by
  rw [verdict, inspection, h]
  rfl

/-- The verdict on a file under another name, in a file system of the same shape where the file
holds the same: there is none under either name, or both report the same status. -/
theorem verdict_respelt (u : Updater) (halike : fs.Alike p q) (hshape : SameShape fs fs')
    (hnode : ∀ place, fs.locate .target p = .ok place → fs'.node? place = fs.node? place) :
    (∃ fault fault', u.verdict fs p = .error fault ∧ u.verdict fs' q = .error fault') ∨
      ∃ o o', u.verdict fs p = .ok o ∧ u.verdict fs' q = .ok o' ∧ o.status = o'.status := by
  have hverdict : u.verdict fs' q = u.verdict fs q := by
    refine verdict_congr hshape fun place hplace => hnode place ?_
    rw [← halike.locate .target (by decide), hplace]
  rw [hverdict]
  rcases contentAt_respelt halike with ⟨fault, fault', hp, hq⟩ | hsame
  · exact Or.inl ⟨_, _, verdict_of_contentAt_error hp, verdict_of_contentAt_error hq⟩
  cases hcontent : contentAt fs p with
  | error fault =>
    have hq := hsame.trans hcontent
    exact Or.inl ⟨_, _, verdict_of_contentAt_error hcontent, verdict_of_contentAt_error hq⟩
  | ok content =>
    rw [verdict_of_contentAt hcontent, verdict_of_contentAt (hsame.trans hcontent)]
    cases u.textOf content with
    | error fault => exact Or.inl ⟨fault, fault, rfl, rfl⟩
    | ok t =>
      have hrender : (u.revisionOf q t).render = (u.revisionOf p t).render :=
        congrArg Text.unlines (revise_source u.notice.toLines _ _ _).1
      simp only [Except.bind, hrender]
      cases u.bytesOf (u.revisionOf p t).render with
      | error fault => exact Or.inl ⟨fault, fault, rfl, rfl⟩
      | ok rendered =>
        refine Or.inr ⟨_, _, rfl, rfl, ?_⟩
        rw [report_status, report_status, newContent_source p q]

end Updater

end Letterhead
