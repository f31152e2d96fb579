import Letterhead.Proofs.Batch.Consistency
import Letterhead.Proofs.Update.Check

/-!
# A check foretells an update

A batch can be run to report only, and then again to write. Both runs find the same targets, and of
each target the second says what the first has said, or that the update failed. This is so although
the second run finds the files as its earlier updates have left them: an update changes nothing but
the bytes of its own file, so no later target is read or found otherwise, as long as no two targets
lead to the same file.

## Main definitions

* `Updater.inMode` — the same updater, to report only or to write
* `Updater.foretold` — what a check says of a target
* `Performed`, `Round` — what updates of one target, and of several, come to beside what was foretold

## Main results

* `yields_runBatch_checking` — a check says what is foretold of each target, and changes nothing
* `processTarget_performed` — an update stops or fails without effect, or does what was foretold
* `Round.fulfils`, `Round.files_eq`, `Round.foretold` — what was foretold of several targets and what
  becomes of them
* `runBatch_foretold` — what a check of a batch says of an update of it
-/

namespace Letterhead

open FileSystem (SameShape)

variable {u : Updater} {fs fs' : FileSystem} {t : Target}

namespace Updater

/-- The same updater, to report only or to write. -/
def inMode (u : Updater) (checkOnly : Bool) : Updater :=
  { u with config := { u.config with checkOnly } }

/-- What a check says of a target. -/
def foretold (u : Updater) (fs : FileSystem) (t : Target) : Except Fault Outcome :=
  if t.readable then settle t.path.toString (u.verdict fs t.path) else .ok (skippedOutcome t)

/-- Where the target leads to the same node, the same is foretold of it. -/
theorem foretold_congr (hshape : SameShape fs fs')
    (hnode : ∀ place, fs.locate .target t.path = .ok place → fs'.node? place = fs.node? place) :
    u.foretold fs' t = u.foretold fs t := by
  rw [foretold, foretold, verdict_congr hshape hnode]

end Updater

/-! ### One target -/

theorem yields_processTarget_checking (u : Updater) (t : Target) (fs : FileSystem) :
    Yields (processTarget (u.inMode true) t) fs (u.foretold fs t) fs := by
  rw [Updater.foretold]
  cases hreadable : t.readable with
  | false => exact yields_processTarget_unreadable _ hreadable fs
  | true => exact yields_processTarget hreadable (u.yields_check t.path fs)

/-- What an update of a target comes to: it stops or fails and changes nothing, or it does what was
foretold, and then too changes nothing unless it was an update that was foretold. -/
inductive Performed (u : Updater) (t : Target) (fs : FileSystem) :
    Except Fault Outcome → FileSystem → Prop
  | stopped {fault : Fault} : Performed u t fs (.error fault) fs
  | failed {o : Outcome} (hstatus : o.status = .failed) : Performed u t fs (.ok o) fs
  | asForetold {o : Outcome} {fs' : FileSystem} (hforetold : u.foretold fs t = .ok o)
      (hsame : o.status ≠ .updated → fs' = fs) : Performed u t fs (.ok o) fs'

theorem exists_performed (u : Updater) (hhome : fs.HomeReached) (t : Target) :
    ∃ r fs', Yields (processTarget (u.inMode false) t) fs r fs' ∧ Performed u t fs r fs' := by
  cases hreadable : t.readable with
  | false =>
    refine ⟨_, fs, yields_processTarget_unreadable _ hreadable fs, .asForetold ?_ fun _ => rfl⟩
    simp [Updater.foretold, hreadable]
  | true =>
    rcases u.update_verdict hhome t.path with ⟨fault, h⟩ | ⟨o, fs', h, hverdict, hsame⟩
    · refine ⟨_, fs, yields_processTarget hreadable h, ?_⟩
      rw [settle]
      cases hfailure : failure t.path.toString fault with
      | error fault => exact .stopped
      | ok o => exact .failed (status_of_failure hfailure)
    · have hfile : Yields (processFile (u.inMode false) t.path) fs (.ok o) fs' := h
      refine ⟨.ok o, fs', yields_processTarget hreadable hfile, .asForetold ?_ hsame⟩
      simp [Updater.foretold, hreadable, hverdict, settle]

/-- What an update of a target comes to, beside what was foretold and beside what it does to files. -/
theorem processTarget_performed (u : Updater) (hhome : fs.HomeReached) (t : Target) :
    ∃ r fs', Yields (processTarget (u.inMode false) t) fs r fs' ∧ Performed u t fs r fs' ∧
      Processed t fs r fs' := by
  obtain ⟨r, fs', hyields, hperformed⟩ := exists_performed u hhome t
  obtain ⟨r', fs'', hyields', hprocessed⟩ :=
    processTarget_cases (u := u.inMode false) rfl hhome t
  obtain ⟨rfl, rfl⟩ := hyields.unique hyields'
  exact ⟨r, fs', hyields, hperformed, hprocessed⟩

/-! ### All targets -/

/-- A list is mapped to values exactly when its members are, one by one. -/
theorem mapM_eq_ok_iff {α β ε : Type} {f : α → Except ε β} {as : List α} {bs : List β} :
    as.mapM f = .ok bs ↔ List.Forall₂ (fun a b => f a = .ok b) as bs := by
  induction as generalizing bs with
  | nil =>
    rw [List.forall₂_nil_left_iff, List.mapM_nil]
    exact ⟨fun h => (Except.ok.inj h).symm, fun h => h ▸ rfl⟩
  | cons a as ih =>
    rw [List.mapM_cons, List.forall₂_cons_left_iff]
    constructor
    · intro h
      cases ha : f a with
      | error e => rw [ha] at h; cases h
      | ok b =>
        cases has : as.mapM f with
        | error e => rw [ha, has] at h; cases h
        | ok rest =>
          rw [ha, has] at h
          exact ⟨b, rest, rfl, ih.mp has, (Except.ok.inj h).symm⟩
    · rintro ⟨b, rest, ha, hrest, rfl⟩
      rw [ha, ih.mpr hrest]
      rfl

/-- Two lists that go with a third one go together. -/
theorem forall₂_of_common {α β γ : Type} {R : α → β → Prop} {S : α → γ → Prop} {T : β → γ → Prop}
    (h : ∀ a b c, R a b → S a c → T b c) {as : List α} {bs : List β} {cs : List γ}
    (hr : List.Forall₂ R as bs) (hs : List.Forall₂ S as cs) : List.Forall₂ T bs cs := by
  induction hr generalizing cs with
  | nil =>
    cases hs
    exact .nil
  | cons hab _ ih =>
    cases hs with
    | cons hac hrest => exact .cons (h _ _ _ hab hac) (ih hrest)

/-- Updates of some targets, one after the other, until one of them stops. -/
inductive Round (u : Updater) :
    FileSystem → List Target → Except Fault (List Outcome) → FileSystem → Prop
  | nil {fs : FileSystem} : Round u fs [] (.ok []) fs
  | stop {fs : FileSystem} {t : Target} {ts : List Target} {fault : Fault} :
      Round u fs (t :: ts) (.error fault) fs
  | cons {fs fs₁ fs' : FileSystem} {t : Target} {ts : List Target} {o : Outcome}
      {r : Except Fault (List Outcome)} (hperformed : Performed u t fs (.ok o) fs₁)
      (hprocessed : Processed t fs (.ok o) fs₁) (hrest : Round u fs₁ ts r fs') :
      Round u fs (t :: ts) (r.map (o :: ·)) fs'

theorem exists_round (u : Updater) (ts : List Target) :
    ∀ fs : FileSystem, fs.HomeReached → ∃ r fs',
      Yields (ts.mapM (processTarget (u.inMode false))) fs r fs' ∧ Round u fs ts r fs' := by
  induction ts with
  | nil => exact fun fs _ => ⟨.ok [], fs, .pure, .nil⟩
  | cons t ts ih =>
    intro fs hhome
    obtain ⟨r, fs₁, hyields, hperformed, hprocessed⟩ := processTarget_performed u hhome t
    cases r with
    | error fault =>
      cases hperformed
      exact ⟨_, _, yields_mapM_cons_error hyields ts, .stop⟩
    | ok o =>
      obtain ⟨r, fs₂, hrest, hround⟩ := ih fs₁ (hprocessed.sameShape.homeReached hhome)
      exact ⟨_, _, yields_mapM_cons hyields hrest, .cons hperformed hprocessed hround⟩

/-- An update of a target has failed, or comes to what was foretold. -/
def Fulfils (u : Updater) (fs : FileSystem) (t : Target) (o : Outcome) : Prop :=
  o.status = .failed ∨ u.foretold fs t = .ok o

namespace Round

variable {ts : List Target} {r : Except Fault (List Outcome)} {said done : List Outcome}

/-- If no two targets lead to the same file, then what is foretold in the first file system is
fulfilled in those that earlier updates have left. -/
theorem fulfils (h : Round u fs ts r fs') (hr : r = .ok done) (hapart : ts.Pairwise (Apart fs)) :
    List.Forall₂ (Fulfils u fs) ts done := by
  induction h generalizing done with
  | nil =>
    cases hr
    exact .nil
  | stop => cases hr
  | @cons fs fs₁ fs' t ts o r hperformed hprocessed hrest ih =>
    obtain ⟨hfirst, hlater⟩ := List.pairwise_cons.mp hapart
    cases r with
    | error fault => cases hr
    | ok more =>
      cases hr
      have hmore := ih rfl (hprocessed.sameShape.pairwise_apart hlater)
      refine .cons ?_ ?_
      · cases hperformed with
        | failed hstatus => exact Or.inl hstatus
        | asForetold hforetold => exact Or.inr hforetold
      · -- Later targets do not lead to the file that was written, so the same is foretold of them.
        refine ((List.forall₂_and_left _ _).mpr ⟨hfirst, hmore⟩).imp fun t' o' ⟨hapart', h'⟩ => ?_
        rw [Fulfils, Updater.foretold_congr hprocessed.sameShape fun place hplace => ?_] at h'
        · exact h'
        · exact hprocessed.node?_eq fun hplace' => hapart' place hplace' hplace

/-- If no update is foretold, then nothing changes from one target to the next. -/
theorem files_eq (h : Round u fs ts r fs')
    (hsaid : List.Forall₂ (fun t o => u.foretold fs t = .ok o) ts said)
    (hquiet : ∀ o ∈ said, o.status ≠ .updated) : fs' = fs := by
  induction h generalizing said with
  | nil => rfl
  | stop => rfl
  | @cons fs fs₁ fs' t ts o r hperformed _ _ ih =>
    obtain ⟨o', rest, hforetold, hmore, rfl⟩ := List.forall₂_cons_left_iff.mp hsaid
    obtain ⟨hfirst, hlater⟩ := List.forall_mem_cons.mp hquiet
    cases hperformed with
    | failed => exact ih hmore hlater
    | asForetold hforetold' hsame =>
      obtain rfl := Except.ok.inj (hforetold.symm.trans hforetold')
      obtain rfl := hsame hfirst
      exact ih hmore hlater

/-- If updates report neither an update nor a failure, then what they report was foretold. Nothing has
changed up to any target, so each was foretold in the file system that it was met in. -/
theorem foretold (h : Round u fs ts r fs') (hr : r = .ok done)
    (hquiet : ∀ o ∈ done, o.status ≠ .updated ∧ o.status ≠ .failed) :
    List.Forall₂ (fun t o => u.foretold fs t = .ok o) ts done := by
  induction h generalizing done with
  | nil =>
    cases hr
    exact .nil
  | stop => cases hr
  | @cons fs fs₁ fs' t ts o r hperformed _ _ ih =>
    cases r with
    | error fault => cases hr
    | ok more =>
      cases hr
      obtain ⟨⟨hupdated, hfailed⟩, hlater⟩ := List.forall_mem_cons.mp hquiet
      cases hperformed with
      | failed hstatus => exact absurd hstatus hfailed
      | asForetold hfirst hsame =>
        obtain rfl := hsame hupdated
        exact .cons hfirst (ih rfl hlater)

end Round

/-! ### The whole batch -/

theorem planPath_inMode (u : Updater) (checkOnly : Bool) (fs : FileSystem) (seen : List Path)
    (path : Path) :
    planPath (u.inMode checkOnly).config fs seen path = planPath u.config fs seen path := rfl

/-- The same targets are found by a batch that reports and by one that writes. -/
theorem plan_inMode (u : Updater) (checkOnly : Bool) (fs : FileSystem) (paths : List Path) :
    ∀ seen, plan (u.inMode checkOnly).config fs seen paths = plan u.config fs seen paths := by
  induction paths with
  | nil => exact fun seen => rfl
  | cons path rest ih =>
    intro seen
    rw [plan, plan, planPath_inMode]
    cases planPath u.config fs seen path with
    | error fault => rfl
    | ok planned => simp only [ih]

/-- A check of a batch says what is foretold of each target, and changes nothing. -/
theorem yields_runBatch_checking (u : Updater) (paths : List Path) (fs : FileSystem) :
    Yields (runBatch (u.inMode true) paths) fs
      (endWith (plan u.config fs [] paths).2 ((plan u.config fs [] paths).1.mapM (u.foretold fs)))
      fs := by
  have hkeeps : KeepsShape fs (processTarget (u.inMode true)) := fun fs' _ t =>
    ⟨_, fs', yields_processTarget_checking u t fs', SameShape.refl fs'⟩
  obtain ⟨r, fs', -, hplanned, hbatch⟩ := yields_discover (u.inMode true).config hkeeps paths
  rw [plan_inMode] at hplanned hbatch
  have hforetold := yields_mapM_still (fun t => yields_processTarget_checking u t fs)
    (plan u.config fs [] paths).1
  obtain ⟨rfl, rfl⟩ := hplanned.unique hforetold
  exact hbatch

/-- An update of a batch is a round through the planned targets. -/
theorem exists_runBatch_writing (u : Updater) (hhome : fs.HomeReached) (paths : List Path) :
    ∃ r fs', Round u fs (plan u.config fs [] paths).1 r fs' ∧
      Yields (runBatch (u.inMode false) paths) fs (endWith (plan u.config fs [] paths).2 r) fs' := by
  obtain ⟨r, fs', -, hplanned, hbatch⟩ :=
    yields_discover (u.inMode false).config
      (keepsShape_processTarget (u := u.inMode false) rfl hhome) paths
  rw [plan_inMode] at hplanned hbatch
  obtain ⟨r', fs'', hyields, hround⟩ := exists_round u (plan u.config fs [] paths).1 fs hhome
  obtain ⟨rfl, rfl⟩ := hplanned.unique hyields
  exact ⟨r, fs', hround, hbatch⟩

/-- What a check of a batch says of an update of it: of each target, that the update fails or comes to
the very outcome that the check has come to. The check itself changes nothing. -/
theorem runBatch_foretold (u : Updater) (paths : List Path) (s : Session)
    (hhome : s.files.HomeReached) {said done : List Outcome} {s₁ s₂ : Session}
    (hcheck : exec (runBatch (u.inMode true) paths) s = (.ok said, s₁))
    (hupdate : exec (runBatch (u.inMode false) paths) s = (.ok done, s₂)) :
    s₁.files = s.files ∧
      ∃ ts, Yields (targets u.config paths) s.files (.ok ts) s.files ∧
        (ts.Pairwise (Apart s.files) →
          List.Forall₂ (fun said done => done = said ∨ done.status = .failed) said done) := by
  obtain ⟨s₁', hexec, hfiles⟩ := (yields_runBatch_checking u paths s.files).exec_eq
  rw [hcheck, Prod.mk.injEq] at hexec
  obtain ⟨hsaid, rfl⟩ := hexec
  obtain ⟨hsearch, hforetold⟩ := endWith_eq_ok_iff.mp hsaid.symm
  refine ⟨hfiles, _, yields_targets_of_end hsearch, fun hapart => ?_⟩
  obtain ⟨r, fs', hround, hbatch⟩ := exists_runBatch_writing u hhome paths
  obtain ⟨s₂', hexec, -⟩ := hbatch.exec_eq
  rw [hupdate, Prod.mk.injEq] at hexec
  have hdone := (endWith_eq_ok_iff.mp hexec.1.symm).2
  refine forall₂_of_common (fun t c o hc ho => ?_) (mapM_eq_ok_iff.mp hforetold)
    (hround.fulfils hdone hapart)
  rcases ho with hfailed | ho
  · exact Or.inr hfailed
  · exact Or.inl (Except.ok.inj (ho.symm.trans hc))

/-- Two files that want the notice; the backup of the second one cannot be made. -/
def rehearsalFiles : FileSystem :=
  (Updater.sampleFiles.put ["work", "B.java"] (.file 0o644 "package b;\n".toUTF8.toList)).put
    ["work", "B.java.bak"] (.file 0o644 [])

theorem homeReached_rehearsalFiles : rehearsalFiles.HomeReached :=
  (Updater.homeReached_sampleFiles.put (by decide +kernel) _).put (by decide +kernel) _

theorem runBatch_foretold_stale_backup :
    rehearsalFiles.HomeReached ∧ ∃ said done s₁ s₂,
      exec (runBatch (Updater.sampleUpdater.inMode true) [⟨.relative, []⟩])
        ⟨rehearsalFiles, []⟩ = (.ok said, s₁) ∧
      exec (runBatch (Updater.sampleUpdater.inMode false) [⟨.relative, []⟩])
        ⟨rehearsalFiles, []⟩ = (.ok done, s₂) ∧
      said.map (·.status) = [.updated, .updated] ∧ done.map (·.status) = [.updated, .failed] ∧
      s₁.files = rehearsalFiles ∧
      ∃ ts, Yields (targets Updater.sampleUpdater.config [⟨.relative, []⟩]) rehearsalFiles
          (.ok ts) rehearsalFiles ∧ ts.Pairwise (Apart rehearsalFiles) ∧
        List.Forall₂ (fun said done => done = said ∨ done.status = .failed) said done := by
  have hplan : plan Updater.sampleUpdater.config rehearsalFiles [] [⟨.relative, []⟩] =
      (halfDoneTargets, none) := by decide +kernel
  have hapart : halfDoneTargets.Pairwise (Apart rehearsalFiles) :=
    List.pairwise_pair.mpr (.of_ne (by decide +kernel))
  have hsaid : (exec (runBatch (Updater.sampleUpdater.inMode true) [⟨.relative, []⟩])
      ⟨rehearsalFiles, []⟩).1.toOption.map (·.map (·.status)) = some [.updated, .updated] := by
    decide +kernel
  have hdone : (exec (runBatch (Updater.sampleUpdater.inMode false) [⟨.relative, []⟩])
      ⟨rehearsalFiles, []⟩).1.toOption.map (·.map (·.status)) = some [.updated, .failed] := by
    decide +kernel
  rcases hcheck : exec (runBatch (Updater.sampleUpdater.inMode true) [⟨.relative, []⟩])
    ⟨rehearsalFiles, []⟩ with ⟨fault | said, s₁⟩
  · rw [hcheck] at hsaid
    cases hsaid
  rcases hupdate : exec (runBatch (Updater.sampleUpdater.inMode false) [⟨.relative, []⟩])
    ⟨rehearsalFiles, []⟩ with ⟨fault | done, s₂⟩
  · rw [hupdate] at hdone
    cases hdone
  rw [hcheck] at hsaid
  rw [hupdate] at hdone
  obtain ⟨hfiles, ts, hfound, hforetold⟩ := runBatch_foretold Updater.sampleUpdater _
    ⟨rehearsalFiles, []⟩ homeReached_rehearsalFiles hcheck hupdate
  obtain rfl := Except.ok.inj ((yields_targets_of_plan hplan).unique hfound).1
  exact ⟨homeReached_rehearsalFiles, said, done, s₁, s₂, rfl, rfl, Option.some.inj hsaid,
    Option.some.inj hdone, hfiles, halfDoneTargets, hfound, hapart, hforetold hapart⟩

end Letterhead
