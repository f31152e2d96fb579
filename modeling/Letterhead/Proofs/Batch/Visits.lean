import Letterhead.Proofs.Batch.Consistency
import Letterhead.Proofs.Update.Respelling

/-!
# Visits of one target in two runs

If the targets of a run lead to different files, each of them finds its file as it was when the run
began, and no later visit comes back to the file. So a visit is what it would be if it were the only
one. Another run may visit the same target later or earlier, or under another name. It comes to the
same there, as long as both names lead to the file and to its backup.

## Main definitions

* `Confined` — nothing has changed but what some targets lead to
* `ReadableApart` — two targets lead to different places, if they can be read
* `Visited` — a target has been visited somewhere in a run

## Main results

* `exists_confined_run` — a run through some targets, visit by visit
* `processFile_respelt` — what becomes of a file under another name
* `Visited.same` — two visits of one target come to the same
-/

namespace Letterhead

open FileSystem (SameShape)

variable {u : Updater} {fs fs' fs₁ fs₂ : FileSystem} {t t' : Target} {ts : List Target}
  {o o' : Outcome} {p q : Path}

/-! ### What visits can change -/

/-- Nothing has changed but what some targets lead to, as far as they can be read. -/
structure Confined (ts : List Target) (fs fs' : FileSystem) : Prop where
  sameShape : SameShape fs fs'
  getElem?_eq : ∀ place : Location,
    (place ≠ [] → ∀ t ∈ ts, t.readable = true → fs.locate .target t.path ≠ .ok place) →
      fs'.nodes[place]? = fs.nodes[place]?

namespace Confined

theorem refl (ts : List Target) (fs : FileSystem) : Confined ts fs fs :=
  ⟨SameShape.refl fs, fun _ _ => rfl⟩

theorem node?_eq (h : Confined ts fs fs') {place : Location}
    (hplace : ∀ t ∈ ts, t.readable = true → fs.locate .target t.path ≠ .ok place) :
    fs'.node? place = fs.node? place := by
  by_cases hroot : place = []
  · rw [hroot]
    rfl
  · rw [fs'.node?_of_ne_nil hroot, fs.node?_of_ne_nil hroot]
    exact h.getElem?_eq place fun _ => hplace

theorem cons (h : Confined [t] fs fs₁) (hrest : Confined ts fs₁ fs') :
    Confined (t :: ts) fs fs' where
  sameShape := h.sameShape.trans hrest.sameShape
  getElem?_eq place hplace := by
    rw [hrest.getElem?_eq place fun hroot t' ht' => ?_, h.getElem?_eq place fun hroot t' ht' => ?_]
    · rw [List.mem_singleton.mp ht']
      exact hplace hroot t List.mem_cons_self
    · rw [h.sameShape.locate]
      exact hplace hroot t' (List.mem_cons_of_mem _ ht')

end Confined

theorem Processed.confined {r : Except Fault Outcome} (h : Processed t fs r fs')
    (hreadable : t.readable = true) : Confined [t] fs fs' where
  sameShape := h.sameShape
  getElem?_eq other hother := by
    cases h with
    | untouched => rfl
    | @rewritten place mode old new _ hfound _ =>
      obtain ⟨hplace, hnode⟩ := FileSystem.find_eq_ok_iff.mp hfound
      have hne : place ≠ other := by
        rintro rfl
        refine hother ?_ t List.mem_cons_self hreadable hplace
        rintro rfl
        cases hnode
      simp [FileSystem.put, Std.ExtTreeMap.getElem?_insert, hne]

/-- A visit comes to something, and changes nothing but what its target leads to. -/
theorem exists_confined (u : Updater) (hhome : fs.HomeReached) (t : Target) :
    ∃ r fs', Yields (processTarget u t) fs r fs' ∧ Confined [t] fs fs' := by
  cases hreadable : t.readable with
  | false => exact ⟨_, fs, yields_processTarget_unreadable u hreadable fs, .refl [t] fs⟩
  | true =>
    cases hmode : u.config.checkOnly with
    | true =>
      have hcheck : Yields (processFile u t.path) fs (u.verdict fs t.path) fs := by
        rw [processFile, if_pos hmode]
        exact u.yields_check t.path fs
      exact ⟨_, fs, yields_processTarget hreadable hcheck, .refl [t] fs⟩
    | false =>
      obtain ⟨r, fs', hyields, hprocessed⟩ := processTarget_cases hmode hhome t
      exact ⟨r, fs', hyields, hprocessed.confined hreadable⟩

theorem keepsShape_visits (u : Updater) (hhome : fs.HomeReached) :
    KeepsShape fs (processTarget u) := by
  intro fs₁ hshape t
  obtain ⟨r, fs₂, hyields, hconfined⟩ := exists_confined u (hshape.homeReached hhome) t
  exact ⟨r, fs₂, hyields, hconfined.sameShape⟩

/-! ### Runs -/

/-- The targets lead to different places, if they can be read. -/
def ReadableApart (fs : FileSystem) (t t' : Target) : Prop :=
  t.readable = true → t'.readable = true → Apart fs t t'

/-- A target has been visited somewhere in a run. What it leads to was then as at the beginning of
the run, and is at the end as the visit has left it. -/
def Visited (u : Updater) (fs fs' : FileSystem) (t : Target) (o : Outcome) : Prop :=
  ∃ before after, SameShape fs before ∧ Yields (processTarget u t) before (.ok o) after ∧
    (t.readable = true → ∀ place, fs.locate .target t.path = .ok place →
      before.node? place = fs.node? place ∧ fs'.node? place = after.node? place)

theorem visited_alone (h : Yields (processTarget u t) fs (.ok o) fs') : Visited u fs fs' t o :=
  ⟨fs, fs', SameShape.refl fs, h, fun _ _ _ => ⟨rfl, rfl⟩⟩

/-- The first visit of a run: no later one comes back to what it has left. -/
theorem visited_first (h : Yields (processTarget u t) fs (.ok o) fs₁) (hfirst : Confined [t] fs fs₁)
    (hrest : Confined ts fs₁ fs') (hapart : ∀ t' ∈ ts, ReadableApart fs t t') :
    Visited u fs fs' t o := by
  refine ⟨fs, fs₁, SameShape.refl fs, h, fun hreadable place hplace => ⟨rfl, ?_⟩⟩
  refine hrest.node?_eq fun t' ht' hreadable' => ?_
  rw [hfirst.sameShape.locate]
  exact hapart t' ht' hreadable hreadable' place hplace

/-- A later visit of a run: the first one has not touched what it finds. -/
theorem Visited.later (h : Visited u fs₁ fs' t' o) (hfirst : Confined [t] fs fs₁)
    (hapart : ReadableApart fs t t') : Visited u fs fs' t' o := by
  obtain ⟨before, after, hshape, hvisit, hnode⟩ := h
  refine ⟨before, after, hfirst.sameShape.trans hshape, hvisit, fun hreadable' place hplace => ?_⟩
  obtain ⟨hbefore, hafter⟩ := hnode hreadable' place ((hfirst.sameShape.locate ..).trans hplace)
  refine ⟨hbefore.trans (hfirst.node?_eq fun other hother hreadable hlead => ?_), hafter⟩
  rw [List.mem_singleton.mp hother] at hreadable hlead
  exact hapart hreadable hreadable' place hlead hplace

/-- A run through some targets changes nothing but what they lead to. If they lead to different
places, each of them is visited as if it were the only one. -/
theorem exists_confined_run (u : Updater) (ts : List Target) :
    ∀ fs : FileSystem, fs.HomeReached → ∃ r fs', Yields (ts.mapM (processTarget u)) fs r fs' ∧
      Confined ts fs fs' ∧ ∀ outcomes, r = .ok outcomes → ts.Pairwise (ReadableApart fs) →
        List.Forall₂ (Visited u fs fs') ts outcomes := by
  induction ts with
  | nil =>
    refine fun fs _ => ⟨.ok [], fs, .pure, .refl [] fs, ?_⟩
    rintro outcomes houtcomes -
    rw [← Except.ok.inj houtcomes]
    exact .nil
  | cons t ts ih =>
    intro fs hhome
    obtain ⟨r, fs₁, hvisit, hfirst⟩ := exists_confined u hhome t
    cases r with
    | error fault =>
      exact ⟨_, fs₁, yields_mapM_cons_error hvisit ts, hfirst.cons (.refl ts fs₁), nofun⟩
    | ok o =>
      obtain ⟨r, fs₂, hrun, hrest, hvisited⟩ := ih fs₁ (hfirst.sameShape.homeReached hhome)
      refine ⟨_, fs₂, yields_mapM_cons hvisit hrun, hfirst.cons hrest, ?_⟩
      intro outcomes houtcomes hapart
      cases r with
      | error fault => cases houtcomes
      | ok more =>
        cases houtcomes
        obtain ⟨hapart, hlater⟩ := List.pairwise_cons.mp hapart
        refine .cons (visited_first hvisit hfirst hrest hapart) ?_
        -- Targets that lead to different places do so in the tree that the first visit has left.
        have hlater₁ : ts.Pairwise (ReadableApart fs₁) := by
          refine hlater.imp fun hab ha hb place => ?_
          rw [hfirst.sameShape.locate, hfirst.sameShape.locate]
          exact hab ha hb place
        have hmore := (List.forall₂_and_left _ _).mpr ⟨hapart, hvisited more rfl hlater₁⟩
        exact hmore.imp fun t' o' ⟨hapart', h⟩ => h.later hfirst hapart'

/-! ### One target in two runs -/

/-- What becomes of a file under another name, in a file system of the same shape where the file
holds the same: it fails under both names, or the reports agree and the file is left alike. -/
theorem processFile_respelt (hhome : fs.HomeReached) (hshape : SameShape fs fs')
    (halike : fs.Alike p q) (hrespelt : u.config.checkOnly = false → u.Respelt fs p q)
    (hnode : ∀ place, fs.locate .target p = .ok place → fs'.node? place = fs.node? place) :
    (∃ fault fault', Yields (processFile u p) fs (.error fault) fs ∧
      Yields (processFile u q) fs' (.error fault') fs') ∨
    ∃ o o' fs₁ fs₂, Yields (processFile u p) fs (.ok o) fs₁ ∧
      Yields (processFile u q) fs' (.ok o') fs₂ ∧ o'.status = o.status ∧
        ∀ place, fs.locate .target p = .ok place → fs₂.node? place = fs₁.node? place := by
  rw [processFile, processFile]
  cases hmode : u.config.checkOnly with
  | true =>
    have hcheck := u.yields_check p fs
    have hcheck' := u.yields_check q fs'
    rcases u.verdict_respelt halike hshape hnode with
      ⟨fault, fault', hp, hq⟩ | ⟨o, o', hp, hq, hstatus⟩
    · rw [hp] at hcheck
      rw [hq] at hcheck'
      exact Or.inl ⟨fault, fault', hcheck, hcheck'⟩
    · rw [hp] at hcheck
      rw [hq] at hcheck'
      exact Or.inr ⟨o, o', fs, fs', hcheck, hcheck', hstatus.symm, hnode⟩
  | false =>
    rcases Updater.update_respelt hhome hshape (hrespelt hmode) hnode with
      hfails | ⟨o, o', place, node, hplace, hroot, hstatus, hp, hq⟩
    · exact Or.inl hfails
    · refine Or.inr ⟨o, o', _, _, hp, hq, hstatus.symm, fun other hother => ?_⟩
      obtain rfl := Except.ok.inj (hplace.symm.trans hother)
      rw [FileSystem.node?_put _ _ hroot, FileSystem.node?_put _ _ hroot, if_pos rfl, if_pos rfl]

/-- Two visits of one target, in different runs that began alike and under different names: they
come to the same status, and the file is left alike. -/
theorem Visited.same (h : Visited u fs fs₁ t o) (h' : Visited u fs fs₂ t' o')
    (hhome : fs.HomeReached) (hreadable : t'.readable = t.readable)
    (halike : t.readable = true → fs.Alike t.path t'.path)
    (hrespelt : u.config.checkOnly = false → t.readable = true → u.Respelt fs t.path t'.path) :
    o'.status = o.status ∧ (t.readable = true → ∀ place, fs.locate .target t.path = .ok place →
      fs₂.node? place = fs₁.node? place) := by
  obtain ⟨before, after, hshape, hvisit, hnode⟩ := h
  obtain ⟨before', after', hshape', hvisit', hnode'⟩ := h'
  cases hfile : t.readable with
  | false =>
    obtain ⟨ho, -⟩ := hvisit.unique (yields_processTarget_unreadable u hfile before)
    obtain ⟨ho', -⟩ := hvisit'.unique
      (yields_processTarget_unreadable u (hreadable.trans hfile) before')
    rw [Except.ok.inj ho, Except.ok.inj ho']
    exact ⟨rfl, nofun⟩
  | true =>
    have hfile' := hreadable.trans hfile
    have hlocate := (halike hfile).locate .target (by decide)
    -- Both visits find the file as it was when the runs began.
    have hfound : ∀ place, before.locate .target t.path = .ok place →
        before'.node? place = before.node? place := by
      intro place hplace
      rw [hshape.locate] at hplace
      rw [(hnode hfile place hplace).1, (hnode' hfile' place (hlocate.trans hplace)).1]
    rcases processFile_respelt (hshape.homeReached hhome) (hshape.symm.trans hshape')
      ((halike hfile).sameShape hshape) (fun hmode => (hrespelt hmode hfile).sameShape hshape)
      hfound with ⟨fault, fault', hp, hq⟩ | ⟨r, r', mine, its, hp, hq, hstatus, hleft⟩
    · obtain ⟨ho, rfl⟩ := hvisit.unique (yields_processTarget hfile hp)
      obtain ⟨ho', rfl⟩ := hvisit'.unique (yields_processTarget hfile' hq)
      have hstatus := (status_of_failure ho'.symm).trans (status_of_failure ho.symm).symm
      refine ⟨hstatus, fun _ place hplace => ?_⟩
      rw [(hnode hfile place hplace).2, (hnode' hfile' place (hlocate.trans hplace)).2]
      exact hfound place ((hshape.locate ..).trans hplace)
    · obtain ⟨ho, rfl⟩ := hvisit.unique (yields_processTarget hfile hp)
      obtain ⟨ho', rfl⟩ := hvisit'.unique (yields_processTarget hfile' hq)
      rw [Except.ok.inj ho, Except.ok.inj ho']
      refine ⟨hstatus, fun _ place hplace => ?_⟩
      rw [(hnode hfile place hplace).2, (hnode' hfile' place (hlocate.trans hplace)).2]
      exact hleft place ((hshape.locate ..).trans hplace)

end Letterhead
