import Letterhead.Proofs.Batch.Consistency

/-!
# The targets that a batch visits

A batch looks for its targets while it rewrites files: a directory is listed, and a file in it
looked at, in the tree as earlier updates have left it. To see which targets are visited, each visit
is made to hand out its target beside what it comes to. This disturbs nothing. The targets seen in
this way are those that a search finds in the first tree, when nothing is rewritten, and they are
found to be readable or not as they are there. For every update, whatever it comes to, gives the
tree its shape back before the search goes on, and its backup is never there to be found.

## Main definitions

* `recorded` — a visit that hands out its target as well

## Main results

* `map_discover_recorded` — a search with recorded visits is the same search
* `gives_processTarget` — the outcome for a target is named after it
* `runBatch_visits` — a batch visits the targets that are there before it begins
-/

namespace Letterhead

variable {α : Type} {config : Config} {visit : Target → SessionM α}

/-- A visit that hands out its target beside what it comes to. -/
def recorded (visit : Target → SessionM α) (t : Target) : SessionM (Target × α) := do
  let a ← visit t
  pure (t, a)

/-! ### A record disturbs nothing -/

theorem map_recorded (visit : Target → SessionM α) (t : Target) :
    Prod.snd <$> recorded visit t = visit t := by
  rw [recorded, map_bind]
  simp only [map_pure]
  exact bind_pure (visit t)

theorem map_visitCandidates_recorded (visit : Target → SessionM α)
    (admitted : FileSystem → Path → Bool) (candidates : List Path) :
    ∀ seen, (fun found => (found.1.map Prod.snd, found.2)) <$>
      visitCandidates (recorded visit) admitted seen candidates =
        visitCandidates visit admitted seen candidates := by
  induction candidates with
  | nil => exact fun seen => map_pure _ _
  | cons path rest ih =>
    intro seen
    rw [visitCandidates, visitCandidates, map_bind]
    refine bind_congr fun s => ?_
    simp only
    split
    · -- The record of this visit is dropped at once on one side, and with the others on the other.
      rw [← map_recorded visit, map_bind, bind_map_left]
      refine bind_congr fun a => ?_
      rw [← ih, map_bind, bind_map_left]
      simp only [map_pure, List.map_cons]
    · exact ih seen

theorem map_visitPath_recorded (config : Config) (visit : Target → SessionM α) (seen : List Path)
    (path : Path) :
    (fun found => (found.1.map Prod.snd, found.2)) <$>
      visitPath config (recorded visit) seen path = visitPath config visit seen path := by
  rw [visitPath, visitPath]
  split
  · rw [map_bind]
    exact bind_congr fun _ => map_pure _ _
  · rw [map_bind]
    refine bind_congr fun directory => ?_
    cases directory with
    | false => exact map_visitCandidates_recorded visit (fun _ _ => true) [path] seen
    | true =>
      simp only [if_true, map_bind]
      refine bind_congr fun s => ?_
      split
      · rfl
      · exact map_visitCandidates_recorded visit _ _ seen

theorem map_discoverFrom_recorded (config : Config) (visit : Target → SessionM α)
    (paths : List Path) :
    ∀ seen, List.map Prod.snd <$> discoverFrom config (recorded visit) seen paths =
      discoverFrom config visit seen paths := by
  induction paths with
  | nil => exact fun seen => map_pure _ _
  | cons path rest ih =>
    intro seen
    rw [discoverFrom, discoverFrom, ← map_visitPath_recorded config visit, map_bind, bind_map_left]
    refine bind_congr fun found => ?_
    obtain ⟨results, seen⟩ := found
    simp only
    rw [← ih seen, map_bind, bind_map_left]
    simp only [map_pure, List.map_append]

/-- A search with recorded visits comes to the same, and leaves the same session. -/
theorem map_discover_recorded (config : Config) (visit : Target → SessionM α) (paths : List Path) :
    List.map Prod.snd <$> discover config (recorded visit) paths = discover config visit paths :=
  map_discoverFrom_recorded config visit paths []

/-! ### Outcomes and their targets -/

theorem gives_outcome (u : Updater) (path : Path) (i : Inspection) :
    Gives (fun o : Outcome => o.path = path.toString) (u.outcome path i) :=
  .bind_last _ fun _ => .pure rfl

theorem gives_processFile (u : Updater) (path : Path) :
    Gives (fun o : Outcome => o.path = path.toString) (processFile u path) := by
  rw [processFile]
  split
  · exact .bind_last _ fun i => gives_outcome u path i
  · refine .bind_last _ fun i => ?_
    exact .bind_last _ fun _ => .bind_last _ fun _ => .bind_last _ fun _ => gives_outcome u path i

theorem gives_failedOutcome (name : String) (fault : Fault) :
    Gives (fun o : Outcome => o.path = name) (failedOutcome name fault) := by
  rw [failedOutcome]
  split
  · exact .bind_last _ fun _ => .pure rfl
  · exact .throw fault

/-- The outcome for a target is named after it, whether its file is processed, skipped or fails. -/
theorem gives_processTarget (u : Updater) (t : Target) :
    Gives (fun o : Outcome => o.path = t.path.toString) (processTarget u t) := by
  rw [processTarget]
  split
  · refine .tryCatch ?_ (gives_failedOutcome _)
    exact (gives_processFile u t.path).bind fun o ho => .bind_last _ fun _ => .pure ho
  · exact .bind_last _ fun _ => .pure rfl

/-- Visits of several targets come to one value for each of them, in order. -/
theorem gives_mapM {R : Target → α → Prop} (h : ∀ t, Gives (R t) (visit t)) (ts : List Target) :
    Gives (List.Forall₂ R ts) (ts.mapM visit) := by
  induction ts with
  | nil => exact .pure .nil
  | cons t ts ih =>
    rw [List.mapM_cons]
    exact (h t).bind fun a ha => ih.bind fun as has => .pure (.cons ha has)

/-! ### The targets of a batch -/

/-- A record does not change what a visit makes of the files. -/
theorem KeepsShape.recorded {fs : FileSystem} (h : KeepsShape fs visit) :
    KeepsShape fs (recorded visit) := by
  intro fs₁ hshape t
  obtain ⟨r, fs₂, hvisited, hshape'⟩ := h fs₁ hshape t
  cases r with
  | error fault => exact ⟨.error fault, fs₂, hvisited.bind_error, hshape'⟩
  | ok a => exact ⟨.ok (t, a), fs₂, hvisited.bind .pure, hshape'⟩

/-- If a search with visits that keep the shape of the tree comes to an end, then it has visited the
targets that a search without visits finds at first, one by one and in order. -/
theorem exists_targets_of_discover (config : Config) {s s' : Session} {R : Target → α → Prop}
    (hvisit : KeepsShape s.files visit) (hgives : ∀ t, Gives (R t) (visit t)) {paths : List Path}
    {as : List α} (h : exec (discover config visit paths) s = (.ok as, s')) :
    ∃ ts, Yields (targets config paths) s.files (.ok ts) s.files ∧ List.Forall₂ R ts as := by
  obtain ⟨r, fs', -, hplanned, hfound⟩ := yields_discover config hvisit paths
  obtain ⟨s'', hexec, -⟩ := hfound.exec_eq
  rw [h, Prod.mk.injEq] at hexec
  obtain ⟨hsearch, rfl⟩ := endWith_eq_ok_iff.mp hexec.1.symm
  obtain ⟨s₁, hrun, -⟩ := hplanned.exec_eq
  exact ⟨_, yields_targets_of_end hsearch, gives_mapM hgives _ s as s₁ hrun⟩

/-- A batch that writes and comes to an end has visited the targets that the search alone finds in
the tree as it is before the batch, in that order and found to be readable or not as there, and its
outcomes are named after them. -/
theorem runBatch_visits (u : Updater) (paths : List Path) (s : Session)
    (hcheck : u.config.checkOnly = false) (hhome : s.files.HomeReached) {outcomes : List Outcome}
    {s' : Session} (hbatch : exec (runBatch u paths) s = (.ok outcomes, s')) :
    ∃ ts, Yields (targets u.config paths) s.files (.ok ts) s.files ∧
      exec (discover u.config (recorded (processTarget u)) paths) s = (.ok (ts.zip outcomes), s') ∧
        outcomes.map (·.path) = ts.map (·.path.toString) := by
  -- The batch is the same search with recorded visits, without the records.
  rw [runBatch, ← map_discover_recorded, exec_map] at hbatch
  rcases hrecorded : exec (discover u.config (recorded (processTarget u)) paths) s with
    ⟨fault | visits, s₁⟩
  · rw [hrecorded] at hbatch
    cases hbatch
  rw [hrecorded] at hbatch
  cases hbatch
  have hkeeps := (keepsShape_processTarget (u := u) hcheck hhome).recorded
  have hgives (t : Target) : Gives (fun visit : Target × Outcome =>
      visit.1 = t ∧ visit.2.path = t.path.toString) (recorded (processTarget u) t) :=
    (gives_processTarget u t).bind fun o ho => .pure ⟨rfl, ho⟩
  obtain ⟨ts, htargets, hvisits⟩ := exists_targets_of_discover u.config hkeeps hgives hrecorded
  -- The records are the targets of the search, and each outcome bears the name of its own.
  have hfst : visits.map Prod.fst = ts := by
    rw [eq_comm, ← List.forall₂_eq_eq_eq, List.forall₂_map_right_iff]
    exact hvisits.imp fun t visit h => h.1.symm
  have hnames : ts.map (·.path.toString) = (visits.map Prod.snd).map (·.path) := by
    rw [← List.forall₂_eq_eq_eq, List.map_map, List.forall₂_map_left_iff, List.forall₂_map_right_iff]
    exact hvisits.imp fun t visit h => h.2.symm
  exact ⟨ts, htargets, by rw [← List.zip_of_prod hfst rfl], hnames.symm⟩

/-- Two files that want the notice. -/
def recordingFiles : FileSystem :=
  Updater.sampleFiles.put ["work", "B.java"] (.file 0o644 "package b;\n".toUTF8.toList)

/-- An updater whose backups have one of the wanted suffixes. -/
def recordingUpdater : Updater := { Updater.sampleUpdater with config := { backupSuffix := ".c" } }

theorem runBatch_visits_sample : ∃ outcomes s',
    exec (runBatch recordingUpdater [⟨.relative, []⟩]) ⟨recordingFiles, []⟩ = (.ok outcomes, s') ∧
      outcomes.map (·.status) = [.updated, .updated] ∧
        ∃ ts, Yields (targets recordingUpdater.config [⟨.relative, []⟩]) recordingFiles (.ok ts)
            recordingFiles ∧
          exec (discover recordingUpdater.config (recorded (processTarget recordingUpdater))
              [⟨.relative, []⟩]) ⟨recordingFiles, []⟩ = (.ok (ts.zip outcomes), s') ∧
            outcomes.map (·.path) = ts.map (·.path.toString) := by
  have hstatuses : (exec (runBatch recordingUpdater [⟨.relative, []⟩])
      ⟨recordingFiles, []⟩).1.toOption.map (·.map (·.status)) = some [.updated, .updated] := by
    decide +kernel
  have hhome : recordingFiles.HomeReached :=
    Updater.homeReached_sampleFiles.put (by decide +kernel) _
  rcases hbatch : exec (runBatch recordingUpdater [⟨.relative, []⟩]) ⟨recordingFiles, []⟩ with
    ⟨fault | outcomes, s'⟩
  · rw [hbatch] at hstatuses
    cases hstatuses
  · rw [hbatch] at hstatuses
    exact ⟨outcomes, s', rfl, Option.some.inj hstatuses,
      runBatch_visits recordingUpdater _ ⟨recordingFiles, []⟩ rfl hhome hbatch⟩

end Letterhead
