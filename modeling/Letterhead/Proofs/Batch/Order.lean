import Mathlib.Data.List.Pairwise
import Letterhead.Proofs.Batch.Candidates
import Letterhead.Proofs.Batch.Recording
import Letterhead.Proofs.Batch.Visits
import Letterhead.Proofs.FileSystem.Detour

/-!
# Batches on the same paths in another order

When the given paths come in another order, the same targets are visited in another order, and some
of them under another name. If they lead to different files, every file ends up as one visit in the
first tree would have left it, and so the order does not matter.

One thing does: a file that is given by two paths is visited under the one that comes first. Its
backup is named after that path, and beside the longer one it may have too long a name for the
system, though beside the shorter one it has not.

## Main definitions

* `Outcome.standing` — where the file stands that an outcome is about
* `Updater.SameRoom` — a backup has room beside both of two paths, or beside neither
* `Pass` — a run through targets, each visited as if it were the only one
* `RoomAlike` — what is asked of the targets that two runs share

## Main results

* `Pass.files_eq`, `Pass.perm_outcomes` — what runs through the same targets have in common
* `runBatch_perm` — the order of the given paths does not matter, given the same room
* `runBatch_order_matters` — without that it does
-/

namespace Letterhead

open FileSystem (SameShape)

variable {u : Updater} {fs fs' fs₁ fs₂ : FileSystem} {t t' : Target} {ts ts' : List Target}
  {o o' : Outcome}

/-! ### Two runs -/

/-- If lists agree as to their keys, and elements of one key agree in what is made of them, then the
lists agree in that. -/
theorem perm_map_of_keys {α β κ γ : Type} {key : α → κ} {key' : β → κ} {f : α → γ} {g : β → γ}
    {as : List α} {bs : List β} (hkeys : (as.map key).Perm (bs.map key'))
    (hagree : ∀ a ∈ as, ∀ b ∈ bs, key a = key' b → f a = g b) : (as.map f).Perm (bs.map g) := by
  induction as generalizing bs with
  | nil =>
    rw [List.map_nil, List.nil_perm, List.map_eq_nil_iff] at hkeys
    rw [hkeys]
    exact .nil
  | cons a as ih =>
    -- The first element has its like on the other side, and both are taken out.
    have hmem : key a ∈ bs.map key' := hkeys.mem_iff.mp List.mem_cons_self
    obtain ⟨b, hb, hkey⟩ := List.mem_map.mp hmem
    obtain ⟨front, back, rfl⟩ := List.append_of_mem hb
    have hmiddle : (front ++ b :: back).Perm (b :: (front ++ back)) := List.perm_middle
    have hperm := hkeys.trans (hmiddle.map key')
    rw [List.map_cons, List.map_cons, hkey] at hperm
    have hlater := ih hperm.cons_inv fun a' ha' b' hb' =>
      hagree a' (List.mem_cons_of_mem _ ha') b' (hmiddle.mem_iff.mpr (List.mem_cons_of_mem _ hb'))
    refine List.Perm.trans ?_ (hmiddle.map g).symm
    rw [List.map_cons, List.map_cons, hagree a List.mem_cons_self b hb hkey.symm]
    exact hlater.cons _

/-- Where the file stands that an outcome is about. -/
def Outcome.standing (fs : FileSystem) (o : Outcome) : Path := fs.standing (Path.parse o.path)

/-- A backup has room beside both paths, or beside neither: they are short enough, with what is
added to the name, or they are not. -/
def Updater.SameRoom (u : Updater) (p q : Path) : Prop :=
  ∀ suffix, u.config.backupSuffix = some suffix →
    (p.toString.utf8ByteSize + suffix.utf8ByteSize < FileSystem.pathLimit ↔
      q.toString.utf8ByteSize + suffix.utf8ByteSize < FileSystem.pathLimit)

theorem FileSystem.Found.respelt (htree : fs.IsTree) (h : fs.Found t) (h' : fs.Found t')
    (hkey : t.key fs = t'.key fs) (hreadable : t.readable = true)
    (hroom : fs.isLink t.path = .ok false → u.SameRoom t.path t'.path) :
    u.Respelt fs t.path t'.path := by
  obtain ⟨hfits, halike⟩ := Found.alike htree h h' hkey hreadable
  have hfile := h.readable_eq.symm.trans hreadable
  have hnames := htree.names_ne_nil hfile
  have hnames' := htree.names_ne_nil (halike.isReadable.trans hfile)
  refine ⟨halike, fun hlink suffix hsuffix backup hbackup => ?_,
    fun hlink suffix hsuffix backup hbackup => ?_⟩
  · exact htree.exists_alike_backup hkey hnames' hfits hbackup (hroom hlink suffix hsuffix)
  · exact htree.exists_alike_backup hkey.symm hnames (fun hne => hfits hne.symm) hbackup
      (hroom hlink suffix hsuffix).symm

/-- A run through targets that a search has found, each visited as if it were the only one. -/
structure Pass (u : Updater) (fs fs' : FileSystem) (ts : List Target) (done : List Outcome) :
    Prop where
  found : ∀ t ∈ ts, fs.Found t
  confined : Confined ts fs fs'
  visited : List.Forall₂ (fun t o => o.path = t.path.toString ∧ Visited u fs fs' t o) ts done

/-- What is asked of targets that two runs share: a backup has room under both names, if one is made
beside them. -/
def RoomAlike (u : Updater) (fs : FileSystem) (ts ts' : List Target) : Prop :=
  u.config.checkOnly = false → ∀ t ∈ ts, ∀ t' ∈ ts', t.key fs = t'.key fs → t.readable = true →
    fs.isLink t.path = .ok false → u.SameRoom t.path t'.path

namespace Pass

variable {done done' : List Outcome}

theorem map_fst_zip (h : Pass u fs fs₁ ts done) : (ts.zip done).map Prod.fst = ts :=
  List.map_fst_zip (Nat.le_of_eq h.visited.length_eq)

theorem map_snd_zip (h : Pass u fs fs₁ ts done) : (ts.zip done).map Prod.snd = done :=
  List.map_snd_zip (Nat.le_of_eq h.visited.length_eq.symm)

theorem exists_visited (h : Pass u fs fs₁ ts done) (ht : t ∈ ts) : ∃ o, Visited u fs fs₁ t o := by
  rw [← h.map_fst_zip] at ht
  obtain ⟨⟨t, o⟩, hmem, rfl⟩ := List.mem_map.mp ht
  exact ⟨o, (List.forall₂_zip h.visited hmem).2⟩

variable (htree : fs.IsTree) (h : Pass u fs fs₁ ts done) (h' : Pass u fs fs₂ ts' done')
  (hroom : RoomAlike u fs ts ts')

include htree h h' hroom

/-- What the runs make of a target that they share. -/
theorem same (ht : t ∈ ts) (ht' : t' ∈ ts') (hkey : t.key fs = t'.key fs)
    (hvisited : Visited u fs fs₁ t o) (hvisited' : Visited u fs fs₂ t' o') :
    o'.status = o.status ∧ (t.readable = true → ∀ place, fs.locate .target t.path = .ok place →
      fs₂.node? place = fs₁.node? place) := by
  have hfound := h.found t ht
  have hfound' := h'.found t' ht'
  refine hvisited.same hvisited' htree.homeReached (hfound.readable_eq_readable htree hfound' hkey)
    (fun hreadable => (hfound.alike htree hfound' hkey hreadable).2) fun hmode hreadable => ?_
  exact hfound.respelt htree hfound' hkey hreadable (hroom hmode t ht t' ht' hkey hreadable)

/-- Runs through the same targets leave the same files. -/
theorem files_eq (hkeys : (ts.map (Target.key fs)).Perm (ts'.map (Target.key fs))) : fs₂ = fs₁ := by
  refine FileSystem.ext_nodes ?_ fun place => ?_
  · rw [h'.confined.sameShape.workingDirectory, h.confined.sameShape.workingDirectory]
  by_cases hlead : place ≠ [] ∧ ∃ t ∈ ts, t.readable = true ∧ fs.locate .target t.path = .ok place
  · -- Both runs visit what stands here.
    obtain ⟨hplace, t, ht, hreadable, hlocate⟩ := hlead
    obtain ⟨t', ht', hkey⟩ := List.mem_map.mp (hkeys.mem_iff.mp (List.mem_map_of_mem ht))
    obtain ⟨o, hvisited⟩ := h.exists_visited ht
    obtain ⟨o', hvisited'⟩ := h'.exists_visited ht'
    obtain ⟨-, hsame⟩ := same htree h h' hroom ht ht' hkey.symm hvisited hvisited'
    have hnode := hsame hreadable place hlocate
    rwa [fs₂.node?_of_ne_nil hplace, fs₁.node?_of_ne_nil hplace] at hnode
  · -- Neither run does, for the other one has no more targets than this one.
    rw [h.confined.getElem?_eq place fun hplace t ht hreadable hlocate =>
        hlead ⟨hplace, t, ht, hreadable, hlocate⟩,
      h'.confined.getElem?_eq place fun hplace t' ht' hreadable' hlocate' => ?_]
    obtain ⟨t, ht, hkey⟩ := List.mem_map.mp (hkeys.mem_iff.mpr (List.mem_map_of_mem ht'))
    have hfound := h.found t ht
    have hfound' := h'.found t' ht'
    have hreadable := (hfound.readable_eq_readable htree hfound' hkey).symm.trans hreadable'
    have halike := (hfound.alike htree hfound' hkey hreadable).2
    refine hlead ⟨hplace, t, ht, hreadable, ?_⟩
    rw [← halike.locate .target (by decide), hlocate']

/-- Runs through the same targets come to the same outcomes, the order and the names apart. -/
theorem perm_outcomes (hkeys : (ts.map (Target.key fs)).Perm (ts'.map (Target.key fs))) :
    (done.map fun o => (o.standing fs, o.status)).Perm
      (done'.map fun o => (o.standing fs, o.status)) := by
  rw [← h.map_fst_zip, ← h'.map_fst_zip, List.map_map, List.map_map] at hkeys
  rw [← h.map_snd_zip, ← h'.map_snd_zip, List.map_map, List.map_map]
  refine perm_map_of_keys hkeys fun visit hvisit visit' hvisit' hkey => ?_
  obtain ⟨hpath, hvisited⟩ := List.forall₂_zip h.visited hvisit
  obtain ⟨hpath', hvisited'⟩ := List.forall₂_zip h'.visited hvisit'
  have ht := (List.of_mem_zip hvisit).1
  have ht' := (List.of_mem_zip hvisit').1
  have hfound := h.found _ ht
  have hfound' := h'.found _ ht'
  have hstatus := (same htree h h' hroom ht ht' hkey hvisited hvisited').1
  -- An outcome bears the name of its target, which is read as the path that was written.
  simp only [Function.comp, Outcome.standing]
  rw [hpath, hpath', Path.parse_toString hfound.proper, Path.parse_toString hfound'.proper,
    hfound.standing_eq htree hfound' hkey, hstatus]

end Pass

/-- Targets that are the same as ones that lead to different places do so, as far as they can be
read. -/
theorem pairwise_readableApart (htree : fs.IsTree) (hfound : ∀ t ∈ ts, fs.Found t)
    (hfound' : ∀ t ∈ ts', fs.Found t) (hnodup : (ts'.map (Target.key fs)).Nodup)
    (hkeys : (ts.map (Target.key fs)).Perm (ts'.map (Target.key fs)))
    (hapart : ts.Pairwise (Apart fs)) : ts'.Pairwise (ReadableApart fs) := by
  have hsymm : Std.Symm (Apart fs) := ⟨fun _ _ hab place hb ha => hab place ha hb⟩
  have hdistinct := List.pairwise_map.mp hnodup
  refine hdistinct.imp_of_mem fun {a b} ha hb hne hreadable hreadable' place => ?_
  obtain ⟨t, ht, hkey⟩ := List.mem_map.mp (hkeys.mem_iff.mpr (List.mem_map_of_mem ha))
  obtain ⟨t', ht', hkey'⟩ := List.mem_map.mp (hkeys.mem_iff.mpr (List.mem_map_of_mem hb))
  -- Different targets of the one run have come from different targets of the other.
  have hne' : t ≠ t' := by
    rintro rfl
    exact hne (hkey.symm.trans hkey')
  have halike := ((hfound' a ha).alike htree (hfound t ht) hkey.symm hreadable).2
  have halike' := ((hfound' b hb).alike htree (hfound t' ht') hkey'.symm hreadable').2
  rw [← halike.locate .target (by decide), ← halike'.locate .target (by decide)]
  exact hapart.forall ht ht' hne' place

/-! ### Two batches -/

/-- A batch that comes to an end is a run through the targets that are planned. -/
theorem yields_run_of_runBatch {paths : List Path} {s s₁ : Session} {done : List Outcome}
    (hhome : s.files.HomeReached) (hrun : exec (runBatch u paths) s = (.ok done, s₁)) :
    (plan u.config s.files [] paths).2 = none ∧
      Yields ((plan u.config s.files [] paths).1.mapM (processTarget u)) s.files (.ok done)
        s₁.files := by
  obtain ⟨r, fs', -, hplanned, hbatch⟩ :=
    yields_discover u.config (keepsShape_visits u hhome) paths
  obtain ⟨s', hexec, rfl⟩ := hbatch.exec_eq
  rw [runBatch, hexec, Prod.mk.injEq] at hrun
  obtain ⟨hend, rfl⟩ := hrun
  obtain ⟨hsearch, rfl⟩ := endWith_eq_ok_iff.mp hend
  exact ⟨hsearch, hplanned⟩

/-- What a run through one target comes to is what a batch does that plans this one alone. -/
theorem yields_runBatch_of_plan (hhome : fs.HomeReached) {paths : List Path}
    (hplan : plan u.config fs [] paths = ([t], none))
    (hvisit : Yields (processTarget u t) fs (.ok o) fs') :
    Yields (runBatch u paths) fs (.ok [o]) fs' := by
  obtain ⟨r, fs'', -, hplanned, hbatch⟩ :=
    yields_discover u.config (keepsShape_visits u hhome) paths
  rw [hplan] at hplanned hbatch
  obtain ⟨rfl, rfl⟩ := hplanned.unique (yields_mapM_cons hvisit .pure)
  exact hbatch

/-- If a batch comes to an end, and its targets lead to different places, then it visits each of
them as if it were the only one. -/
theorem pass_of_runBatch {paths : List Path} {s s₁ : Session} {done : List Outcome}
    (htree : s.files.IsTree) (hpaths : ∀ path ∈ paths, path.Proper)
    (hrun : exec (runBatch u paths) s = (.ok done, s₁))
    (hapart : (plan u.config s.files [] paths).1.Pairwise (ReadableApart s.files)) :
    Pass u s.files s₁.files (plan u.config s.files [] paths).1 done := by
  obtain ⟨hend, hplanned⟩ := yields_run_of_runBatch htree.homeReached hrun
  obtain ⟨r, fs', hyields, hconfined, hvisited⟩ :=
    exists_confined_run u (plan u.config s.files [] paths).1 s.files htree.homeReached
  obtain ⟨rfl, rfl⟩ := hyields.unique hplanned
  obtain ⟨s', hexec, -⟩ := hyields.exec_eq
  have hnames := gives_mapM (gives_processTarget u) _ s done s' hexec
  refine ⟨fun t ht => found_of_mem_plan htree hpaths hend ht, hconfined, ?_⟩
  have hboth := hvisited done rfl hapart
  rw [List.forall₂_iff_zip] at hnames hboth ⊢
  exact ⟨hnames.1, fun hmem => ⟨hnames.2 hmem, hboth.2 hmem⟩⟩

/-- Batches on the same paths in another order leave the same files, and come to the same outcomes
for the same files, if their targets lead to different files, and a file that they take under
different names has room for a backup beside both of them or beside neither. -/
theorem runBatch_perm (u : Updater) {paths paths' : List String} (hpaths : paths.Perm paths')
    (s : Session) (htree : s.files.IsTree) {ts ts' : List Target}
    (htargets : Yields (targets u.config (paths.map Path.parse)) s.files (.ok ts) s.files)
    (htargets' : Yields (targets u.config (paths'.map Path.parse)) s.files (.ok ts') s.files)
    (hapart : ts.Pairwise (Apart s.files)) (hroom : RoomAlike u s.files ts ts')
    {done done' : List Outcome} {s₁ s₂ : Session}
    (hrun : exec (runBatch u (paths.map Path.parse)) s = (.ok done, s₁))
    (hrun' : exec (runBatch u (paths'.map Path.parse)) s = (.ok done', s₂)) :
    s₂.files = s₁.files ∧
      (done.map fun o => (o.standing s.files, o.status)).Perm
        (done'.map fun o => (o.standing s.files, o.status)) := by
  have hend := (yields_run_of_runBatch htree.homeReached hrun).1
  have hend' := (yields_run_of_runBatch htree.homeReached hrun').1
  obtain rfl := Except.ok.inj (htargets.unique (yields_targets_of_end hend)).1
  obtain rfl := Except.ok.inj (htargets'.unique (yields_targets_of_end hend')).1
  have hkeys := perm_key_plan (hpaths.map Path.parse) hend hend'
  have hnodup := nodup_key_plan hend'
  have hpass := pass_of_runBatch htree proper_of_mem_map_parse hrun (hapart.imp fun h _ _ => h)
  -- The other batch has the same targets, so they lead to different places as well.
  have hapart' := pairwise_readableApart htree hpass.found
    (fun t ht => found_of_mem_plan htree proper_of_mem_map_parse hend' ht) hnodup hkeys hapart
  have hpass' := pass_of_runBatch htree proper_of_mem_map_parse hrun' hapart'
  exact ⟨hpass.files_eq htree hpass' hroom hkeys, hpass.perm_outcomes htree hpass' hroom hkeys⟩

/-- The sample with one more node in its working directory. -/
theorem isTree_put_sampleFiles {name : String} (hname : FileSystem.IsName name)
    (hnul : '\x00' ∉ name.toList)
    (hdir : ¬ Updater.sampleFiles.has Node.isDirectory ["work", name]) (node : Node) :
    (Updater.sampleFiles.put ["work", name] node).IsTree := by
  refine isTree_sampleFiles.put hdir (fun step hstep => ?_) node
  rcases List.mem_pair.mp hstep with rfl | rfl
  · exact ⟨⟨by decide, by decide, by decide, by decide⟩, by decide⟩
  · exact ⟨hname, hnul⟩

theorem isTree_recordingFiles : recordingFiles.IsTree :=
  isTree_put_sampleFiles ⟨by decide, by decide, by decide, by decide⟩ (by decide)
    (by decide +kernel) _

/-- The targets in `recordingFiles`, the first one under a name of its own. -/
def recordingTargets (first : Path) : List Target :=
  [⟨first, true⟩, ⟨⟨.relative, ["B.java"]⟩, true⟩]

theorem runBatch_perm_two_spellings :
    recordingFiles.IsTree ∧ ["/work/A.java", "."].Perm [".", "/work/A.java"] ∧
      Yields (targets recordingUpdater.config (["/work/A.java", "."].map Path.parse)) recordingFiles
        (.ok (recordingTargets ⟨.root, ["work", "A.java"]⟩)) recordingFiles ∧
      Yields (targets recordingUpdater.config ([".", "/work/A.java"].map Path.parse)) recordingFiles
        (.ok (recordingTargets ⟨.relative, ["A.java"]⟩)) recordingFiles ∧
      (recordingTargets ⟨.root, ["work", "A.java"]⟩).Pairwise (Apart recordingFiles) ∧
      RoomAlike recordingUpdater recordingFiles (recordingTargets ⟨.root, ["work", "A.java"]⟩)
        (recordingTargets ⟨.relative, ["A.java"]⟩) ∧
      ∃ done done' s₁ s₂,
        exec (runBatch recordingUpdater (["/work/A.java", "."].map Path.parse))
          ⟨recordingFiles, []⟩ = (.ok done, s₁) ∧
        exec (runBatch recordingUpdater ([".", "/work/A.java"].map Path.parse))
          ⟨recordingFiles, []⟩ = (.ok done', s₂) ∧
        done.map (·.status) = [.updated, .updated] ∧
        s₂.files = s₁.files ∧
          (done.map fun o => (o.standing recordingFiles, o.status)).Perm
            (done'.map fun o => (o.standing recordingFiles, o.status)) := by
  have hperm : ["/work/A.java", "."].Perm [".", "/work/A.java"] := .swap ..
  have hplan : plan recordingUpdater.config recordingFiles []
      (["/work/A.java", "."].map Path.parse) =
        (recordingTargets ⟨.root, ["work", "A.java"]⟩, none) := by
    decide +kernel
  have hplan' : plan recordingUpdater.config recordingFiles []
      ([".", "/work/A.java"].map Path.parse) =
        (recordingTargets ⟨.relative, ["A.java"]⟩, none) := by
    decide +kernel
  have htargets := yields_targets_of_plan hplan
  have htargets' := yields_targets_of_plan hplan'
  have hapart : (recordingTargets ⟨.root, ["work", "A.java"]⟩).Pairwise (Apart recordingFiles) :=
    List.pairwise_pair.mpr (.of_ne (by decide +kernel))
  have hroom : RoomAlike recordingUpdater recordingFiles
      (recordingTargets ⟨.root, ["work", "A.java"]⟩)
      (recordingTargets ⟨.relative, ["A.java"]⟩) := by
    have hshort : ∀ t ∈ recordingTargets ⟨.root, ["work", "A.java"]⟩ ++
        recordingTargets ⟨.relative, ["A.java"]⟩,
          t.path.toString.utf8ByteSize + ".c".utf8ByteSize < FileSystem.pathLimit := by
      decide +kernel
    rintro - t ht t' ht' - - - suffix hsuffix
    cases hsuffix
    exact iff_of_true (hshort t (List.mem_append_left _ ht))
      (hshort t' (List.mem_append_right _ ht'))
  have hstatuses : (exec (runBatch recordingUpdater (["/work/A.java", "."].map Path.parse))
      ⟨recordingFiles, []⟩).1.toOption.map (·.map (·.status)) = some [.updated, .updated] := by
    decide +kernel
  have hends : (exec (runBatch recordingUpdater ([".", "/work/A.java"].map Path.parse))
      ⟨recordingFiles, []⟩).1.toOption.isSome = true := by
    decide +kernel
  rcases hrun : exec (runBatch recordingUpdater (["/work/A.java", "."].map Path.parse))
    ⟨recordingFiles, []⟩ with ⟨fault | done, s₁⟩
  · rw [hrun] at hstatuses
    cases hstatuses
  rcases hrun' : exec (runBatch recordingUpdater ([".", "/work/A.java"].map Path.parse))
    ⟨recordingFiles, []⟩ with ⟨fault | done', s₂⟩
  · rw [hrun'] at hends
    cases hends
  rw [hrun] at hstatuses
  exact ⟨isTree_recordingFiles, hperm, htargets, htargets', hapart, hroom, done, done', s₁, s₂, rfl,
    rfl, Option.some.inj hstatuses, runBatch_perm recordingUpdater hperm ⟨recordingFiles, []⟩
      isTree_recordingFiles htargets htargets' hapart hroom hrun hrun'⟩

/-! ### One file by two long ways -/

/-- How long the way round is does not matter to an update, if there is room for a backup. -/
theorem respelt_roundabout (times times' : Nat)
    (hhome : fs.has Node.isSearchable fs.workingDirectory)
    (hway : fs.has Node.isSearchable (fs.workingDirectory ++ ["d"])) {name suffix : String}
    (hsuffix : u.config.backupSuffix = some suffix) (hslash : '/' ∉ (name ++ suffix).toList)
    (hshort : 5 * times + (name ++ suffix).utf8ByteSize < FileSystem.pathLimit)
    (hshort' : 5 * times' + (name ++ suffix).utf8ByteSize < FileSystem.pathLimit) :
    u.Respelt fs (roundabout times name) (roundabout times' name) := by
  have hbackups := alike_roundabout times times' hhome hway hslash hshort hshort'
  have hname : '/' ∉ name.toList := fun h => hslash (by simp [h])
  rw [String.utf8ByteSize_append] at hshort hshort'
  refine ⟨alike_roundabout times times' hhome hway hname (by omega) (by omega), ?_, ?_⟩
  · rintro - suffix' hsuffix' backup hbackup
    obtain rfl := Option.some.inj (hsuffix.symm.trans hsuffix')
    obtain ⟨hne, hsingle, rfl⟩ := backup_roundabout_eq_ok_iff.mp hbackup
    exact ⟨_, backup_roundabout_eq_ok_iff.mpr ⟨hne, hsingle, rfl⟩, hbackups⟩
  · rintro - suffix' hsuffix' backup hbackup
    obtain rfl := Option.some.inj (hsuffix.symm.trans hsuffix')
    obtain ⟨hne, hsingle, rfl⟩ := backup_roundabout_eq_ok_iff.mp hbackup
    exact ⟨_, backup_roundabout_eq_ok_iff.mpr ⟨hne, hsingle, rfl⟩, hbackups.symm⟩

/-- The sample with another directory, in which nothing is. -/
def detourFiles : FileSystem :=
  Updater.sampleFiles.put ["work", "d"] (.directory FileSystem.newDirectoryMode)

theorem isTree_detourFiles : detourFiles.IsTree :=
  isTree_put_sampleFiles ⟨by decide, by decide, by decide, by decide⟩ (by decide)
    (by decide +kernel) _

/-- The file of the sample, by a long way round. -/
def longWay : Path := roundabout 816 "A.java"

/-- The same way from the root on. -/
def longWayFromRoot : Path := longWay.absolute detourFiles.workingDirectory

theorem utf8ByteSize_longWay : longWay.toString.utf8ByteSize = 4086 :=
  (utf8ByteSize_roundabout 816 "A.java").trans (by decide)

theorem utf8ByteSize_longWayFromRoot : longWayFromRoot.toString.utf8ByteSize = 4092 :=
  (utf8ByteSize_absolute_roundabout 816 "A.java").trans (by decide)

theorem proper_longWay : longWay.Proper :=
  proper_roundabout 816 (by decide) (by decide) (by decide)

theorem proper_longWayFromRoot : longWayFromRoot.Proper := by
  intro name hname
  rcases List.mem_append.mp hname with hname | hname
  · rw [List.mem_singleton.mp hname]
    decide
  · exact proper_longWay name hname

theorem absolute_longWayFromRoot :
    longWayFromRoot.absolute detourFiles.workingDirectory = longWayFromRoot :=
  Path.absolute_of_ne_relative nofun

theorem respelt_longWay :
    Updater.sampleUpdater.Respelt detourFiles ⟨.relative, ["A.java"]⟩ longWay := by
  have hhome : detourFiles.has Node.isSearchable detourFiles.workingDirectory := by decide +kernel
  have hway : detourFiles.has Node.isSearchable (detourFiles.workingDirectory ++ ["d"]) := by
    decide +kernel
  have hslash : '/' ∉ ("A.java" ++ ".bak").toList := by decide
  exact respelt_roundabout 0 816 hhome hway rfl hslash (by decide) (by decide)

theorem alike_longWayFromRoot : detourFiles.Alike ⟨.relative, ["A.java"]⟩ longWayFromRoot := by
  have hsame : longWay.absolute detourFiles.workingDirectory =
      longWayFromRoot.absolute detourFiles.workingDirectory := absolute_longWayFromRoot.symm
  refine respelt_longWay.alike.trans (isTree_detourFiles.alike hsame ?_ ?_ ?_ ?_)
  · exact List.append_ne_nil_of_right_ne_nil _ (List.cons_ne_nil _ _)
  · exact List.cons_ne_nil _ _
  · exact fun _ => ⟨rfl, by decide, trivial⟩
  · rw [utf8ByteSize_longWay, utf8ByteSize_longWayFromRoot]
    decide

/-- Nothing on the long way belongs to version control. -/
theorem wanted_longWay :
    hasIgnoredPart Updater.sampleUpdater.config.ignoredNames longWay = false ∧
      hasIgnoredPart Updater.sampleUpdater.config.ignoredNames longWayFromRoot = false := by
  have hdetour : (detour 816).any Updater.sampleUpdater.config.ignoredNames.contains = false := by
    rw [List.any_eq_false]
    intro step hstep
    rcases eq_of_mem_detour hstep with rfl | rfl <;> decide
  constructor
  · change (detour 816 ++ ["A.java"]).any _ = false
    rw [List.any_append, hdetour]
    decide
  · change (["/", "work"] ++ (detour 816 ++ ["A.java"])).any _ = false
    rw [List.any_append, List.any_append, hdetour]
    decide

/-- By the long way the file is updated, as it would be by its own name. -/
theorem exists_visit_longWay : ∃ o fs',
    Yields (processTarget Updater.sampleUpdater ⟨longWay, true⟩) detourFiles (.ok o) fs' ∧
      o.status = .updated ∧ fs' ≠ detourFiles := by
  have htree := isTree_detourFiles
  have hproper : (⟨.relative, ["A.java"]⟩ : Path).Proper :=
    proper_roundabout 0 (by decide) (by decide) (by decide)
  have hreadable : detourFiles.isReadable ⟨.relative, ["A.java"]⟩ = true := by decide +kernel
  obtain ⟨o, fs₁, hvisit, -, -⟩ := processTarget_settled inOrder_sampleUpdater htree
    (t := ⟨⟨.relative, ["A.java"]⟩, true⟩) hproper hreadable.symm
  have hreadable' := respelt_longWay.alike.isReadable.trans hreadable
  obtain ⟨o', fs₂, hvisit', -, -⟩ := processTarget_settled inOrder_sampleUpdater htree
    (t := ⟨longWay, true⟩) proper_longWay hreadable'.symm
  -- What becomes of the file by its own name can be run, and by the long way it is the same.
  obtain ⟨hagree, hleft⟩ := (visited_alone hvisit).same (visited_alone hvisit') htree.homeReached
    rfl (fun _ => respelt_longWay.alike) fun _ _ => respelt_longWay
  have hplace : detourFiles.locate .target ⟨.relative, ["A.java"]⟩ = .ok ["work", "A.java"] := by
    decide +kernel
  obtain ⟨s', hexec, rfl⟩ := hvisit.exec_eq (s := ⟨detourFiles, []⟩)
  have hstatus : (exec (processTarget Updater.sampleUpdater ⟨⟨.relative, ["A.java"]⟩, true⟩)
      ⟨detourFiles, []⟩).1.toOption.map (·.status) = some .updated := by decide +kernel
  have hchanged : (exec (processTarget Updater.sampleUpdater ⟨⟨.relative, ["A.java"]⟩, true⟩)
      ⟨detourFiles, []⟩).2.files.node? ["work", "A.java"] ≠
        detourFiles.node? ["work", "A.java"] := by decide +kernel
  rw [hexec] at hstatus hchanged
  refine ⟨o', fs₂, hvisit', hagree.trans (Option.some.inj hstatus), ?_⟩
  rintro rfl
  exact hchanged (hleft rfl _ hplace).symm

/-- From the root on the same way is too long for a backup, and the update fails. -/
theorem exists_visit_longWayFromRoot : ∃ o,
    Yields (processTarget Updater.sampleUpdater ⟨longWayFromRoot, true⟩) detourFiles (.ok o)
      detourFiles ∧ o.status = .failed := by
  have htree := isTree_detourFiles
  have hreadable : detourFiles.isReadable ⟨.relative, ["A.java"]⟩ = true := by decide +kernel
  have hlink : detourFiles.isLink ⟨.relative, ["A.java"]⟩ = .ok false := by decide +kernel
  have hlong : FileSystem.pathLimit ≤
      longWayFromRoot.toString.utf8ByteSize + ".bak".utf8ByteSize := by
    rw [utf8ByteSize_longWayFromRoot]
    decide
  have hsuffix : Updater.sampleUpdater.config.backupSuffix = some ".bak" := rfl
  obtain ⟨fault, hfails⟩ := Updater.update_fails_of_long htree.homeReached
    (alike_longWayFromRoot.isLink.trans hlink) hsuffix hlong
  have hreadable' := alike_longWayFromRoot.isReadable.trans hreadable
  obtain ⟨o, fs', hvisit, -, -⟩ := processTarget_settled inOrder_sampleUpdater htree
    (t := ⟨longWayFromRoot, true⟩) proper_longWayFromRoot hreadable'.symm
  have hprocess : Yields (processFile Updater.sampleUpdater longWayFromRoot) detourFiles
      (.error fault) detourFiles := hfails
  have htarget := yields_processTarget (t := ⟨longWayFromRoot, true⟩) rfl hprocess
  obtain ⟨ho, rfl⟩ := hvisit.unique htarget
  exact ⟨o, hvisit, status_of_failure ho.symm⟩

/-- Two paths of one file, and the order that they are given in decides whether it is updated. -/
theorem runBatch_order_matters :
    detourFiles.IsTree ∧ ∃ t t' done done' s₁ s₂,
      Yields (targets Updater.sampleUpdater.config ([longWay.toString, longWayFromRoot.toString].map
        Path.parse)) detourFiles (.ok [t]) detourFiles ∧
      Yields (targets Updater.sampleUpdater.config ([longWayFromRoot.toString, longWay.toString].map
        Path.parse)) detourFiles (.ok [t']) detourFiles ∧
      t'.key detourFiles = t.key detourFiles ∧
      exec (runBatch Updater.sampleUpdater ([longWay.toString, longWayFromRoot.toString].map
        Path.parse)) ⟨detourFiles, []⟩ = (.ok done, s₁) ∧
      exec (runBatch Updater.sampleUpdater ([longWayFromRoot.toString, longWay.toString].map
        Path.parse)) ⟨detourFiles, []⟩ = (.ok done', s₂) ∧
      done.map (·.status) = [.updated] ∧ done'.map (·.status) = [.failed] ∧
      s₂.files ≠ s₁.files := by
  have htree := isTree_detourFiles
  have hparse : Path.parse longWay.toString = longWay := Path.parse_toString proper_longWay
  have hparse' : Path.parse longWayFromRoot.toString = longWayFromRoot :=
    Path.parse_toString proper_longWayFromRoot
  simp only [List.map_cons, List.map_nil, hparse, hparse']
  -- Either path is that of the file, and the one that comes first is the one that is taken.
  have hnear := respelt_longWay.alike
  have hfar := alike_longWayFromRoot
  have hsame : longWay.absolute detourFiles.workingDirectory =
      longWayFromRoot.absolute detourFiles.workingDirectory := absolute_longWayFromRoot.symm
  have hfile : detourFiles.isDirectory ⟨.relative, ["A.java"]⟩ = .ok false := by decide +kernel
  have hreadable : detourFiles.isReadable ⟨.relative, ["A.java"]⟩ = true := by decide +kernel
  have hplan : plan Updater.sampleUpdater.config detourFiles [] [longWay, longWayFromRoot] =
      ([⟨longWay, true⟩], none) := by
    rw [plan_spellings wanted_longWay.1 wanted_longWay.2 (hnear.isDirectory.trans hfile)
      (hfar.isDirectory.trans hfile) hsame, hnear.isReadable, hreadable]
  have hplan' : plan Updater.sampleUpdater.config detourFiles [] [longWayFromRoot, longWay] =
      ([⟨longWayFromRoot, true⟩], none) := by
    rw [plan_spellings wanted_longWay.2 wanted_longWay.1 (hfar.isDirectory.trans hfile)
      (hnear.isDirectory.trans hfile) hsame.symm, hfar.isReadable, hreadable]
  obtain ⟨o, fs', hvisit, hstatus, hchanged⟩ := exists_visit_longWay
  obtain ⟨o', hvisit', hstatus'⟩ := exists_visit_longWayFromRoot
  obtain ⟨s₁, hrun, rfl⟩ :=
    (yields_runBatch_of_plan htree.homeReached hplan hvisit).exec_eq (s := ⟨detourFiles, []⟩)
  obtain ⟨s₂, hrun', hfiles⟩ :=
    (yields_runBatch_of_plan htree.homeReached hplan' hvisit').exec_eq (s := ⟨detourFiles, []⟩)
  refine ⟨htree, ⟨longWay, true⟩, ⟨longWayFromRoot, true⟩, [o], [o'], s₁, s₂,
    yields_targets_of_plan hplan, yields_targets_of_plan hplan', absolute_longWayFromRoot, hrun, hrun', by rw [List.map_singleton, hstatus],
    by rw [List.map_singleton, hstatus'], ?_⟩
  rw [hfiles]
  exact hchanged.symm

end Letterhead
