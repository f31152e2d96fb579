import Letterhead.Proofs.FileSystem.Shape
import Letterhead.Proofs.Update.Transaction

/-!
# A check of one file and an update of it

A check reads a file and reports what an update would do. All that it says is worked out from the
content that was read, so it says the same in every file system where the path has that content. An
update works its report out in the same way, and moves files about besides. So if it succeeds, it
reports what a check would have, and unless it reports an update, the files are as they were.

## Main definitions

* `Updater.verdict` — what there is to report on a file

## Main results

* `Updater.yields_check` — a check comes to the verdict, and changes nothing
* `Updater.verdict_congr` — the verdict depends on the content alone
* `Updater.update_verdict` — an update fails, or comes to the verdict
-/

namespace Letterhead.Updater

open FileSystem (SameShape)

variable {u : Updater} {fs fs' : FileSystem} {path : Path}

/-- The content of the file at a path, or the fault of reading it. -/
def contentAt (fs : FileSystem) (path : Path) : Except Fault (List UInt8) :=
  if path.hasNul then .error .embeddedNul
  else
    match fs.read path with
    | .ok content => .ok content
    | .error problem => .error (.file ⟨problem, path.toString, none⟩)

/-- The file at a path as it is read and scanned. -/
def inspection (u : Updater) (fs : FileSystem) (path : Path) : Except Fault Inspection := do
  let content ← contentAt fs path
  let t ← u.textOf content
  pure ⟨content, u.revisionOf path t⟩

/-- What there is to report on the file at a path. -/
def verdict (u : Updater) (fs : FileSystem) (path : Path) : Except Fault Outcome := do
  let i ← u.inspection fs path
  let rendered ← u.bytesOf i.revision.render
  pure (report path i rendered)

theorem exists_text_of_inspection {i : Inspection} (h : u.inspection fs path = .ok i) :
    ∃ content t, contentAt fs path = .ok content ∧ u.textOf content = .ok t ∧
      i = ⟨content, u.revisionOf path t⟩ := by
  rw [inspection] at h
  cases hcontent : contentAt fs path with
  | error fault => rw [hcontent] at h; cases h
  | ok content =>
    rw [hcontent] at h
    change (u.textOf content >>= _) = _ at h
    cases htext : u.textOf content with
    | error fault => rw [htext] at h; cases h
    | ok t =>
      rw [htext] at h
      exact ⟨content, t, rfl, htext, (Except.ok.inj h).symm⟩

theorem exists_report_of_verdict {o : Outcome} (h : u.verdict fs path = .ok o) :
    ∃ i rendered, u.inspection fs path = .ok i ∧ o = report path i rendered := by
  rw [verdict] at h
  cases hinspection : u.inspection fs path with
  | error fault => rw [hinspection] at h; cases h
  | ok i =>
    rw [hinspection] at h
    change (u.bytesOf i.revision.render >>= _) = _ at h
    cases hrendered : u.bytesOf i.revision.render with
    | error fault => rw [hrendered] at h; cases h
    | ok rendered =>
      rw [hrendered] at h
      exact ⟨i, rendered, rfl, (Except.ok.inj h).symm⟩

theorem yields_readFile (path : Path) (fs : FileSystem) :
    Yields (readFile path) fs (contentAt fs path) fs := by
  rw [readFile, contentAt]
  cases hnul : path.hasNul with
  | true =>
    rw [askNamed, hnul]
    exact .throw
  | false =>
    cases hread : fs.read path with
    | ok content => exact .askNamed hnul hread
    | error problem =>
      rw [askNamed, hnul]
      exact .ask_error hread

theorem yields_inspection (u : Updater) (path : Path) (fs : FileSystem) :
    Yields (u.inspect path) fs (u.inspection fs path) fs :=
  (yields_readFile path fs).bind_still fun content =>
    (u.yields_decoded content fs).bind_still fun _ => .pure

/-- A check comes to the verdict, and changes nothing. -/
theorem yields_check (u : Updater) (path : Path) (fs : FileSystem) :
    Yields (u.check path) fs (u.verdict fs path) fs :=
  (u.yields_inspection path fs).bind_still fun i =>
    (u.yields_encoded i.revision.render fs).bind_still fun _ => .pure

theorem Ready.inspection {target backup : Path} {place spare : Location} {mode : Nat}
    {content : List UInt8} {t : Text}
    (h : u.Ready fs path target backup place spare mode content t) :
    u.inspection fs path = .ok ⟨content, u.revisionOf path t⟩ :=
  ((u.yields_inspection path fs).unique (yields_inspect h.noNul h.read h.decoded)).1

/-- Where the path leads to the same node, the verdict is the same. -/
theorem verdict_congr (hshape : SameShape fs fs')
    (hnode : ∀ place, fs.locate .target path = .ok place → fs'.node? place = fs.node? place) :
    u.verdict fs' path = u.verdict fs path := by
  have hfind : fs'.find .target path = fs.find .target path := by
    rw [FileSystem.find, FileSystem.find, hshape.locate]
    cases hlocate : fs.locate .target path with
    | error problem => rfl
    | ok place => simp only [hnode place hlocate]
  rw [verdict, verdict, inspection, inspection, contentAt, contentAt, FileSystem.read,
    FileSystem.read, hfind]

/-- An update fails and changes nothing, or it comes to the verdict; then nothing has changed unless
an update is reported. -/
theorem update_verdict (u : Updater) (hhome : fs.HomeReached) (path : Path) :
    (∃ fault, Yields (u.update path) fs (.error fault) fs) ∨
      ∃ o fs', Yields (u.update path) fs (.ok o) fs' ∧ u.verdict fs path = .ok o ∧
        (o.status ≠ .updated → fs' = fs) := by
  rcases u.ready_or_fails hhome path with
    hfails | ⟨target, backup, place, spare, mode, content, t, h⟩
  · exact Or.inl hfails
  have hupdate := h.update
  cases hrendered : u.bytesOf (u.revisionOf path t).render with
  | error fault =>
    rw [hrendered] at hupdate
    exact Or.inl ⟨fault, hupdate⟩
  | ok rendered =>
    rw [hrendered] at hupdate
    refine Or.inr ⟨_, _, hupdate, ?_, fun hstatus => ?_⟩
    · rw [verdict, h.inspection]
      change (u.bytesOf (u.revisionOf path t).render >>= _) = _
      rw [hrendered]
      rfl
    · -- No update is reported, so the content is the old one.
      rw [report_status] at hstatus
      split at hstatus
      · rename_i hsame
        rw [hsame, h.bracket.put_self]
      · exact absurd rfl hstatus

end Letterhead.Updater
