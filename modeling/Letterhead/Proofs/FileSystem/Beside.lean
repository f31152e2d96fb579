import Letterhead.Proofs.FileSystem.Spelling

/-!
# Names beside each other

Two paths that differ in their last names only are looked up in one directory: wherever the one is
found there, the other has its place beside it. So it is enough to find a backup again to know where
the file goes back to.

## Main definitions

* `LeadsBeside` — where the last of some names leads, and all others in its stead
* `Aside` — the places of a path and its backup

## Main results

* `Leads.split_last` — the last name of a path is looked for where the names before it lead
* `Leads.within` — where names lead, they lead with more nodes too
* `locate_beside` — a path is found again where another one beside it is
* `aside_of_backup` — the backup of what is no directory has its place beside it
-/

namespace Letterhead.FileSystem

variable {fs fs' : FileSystem} {links : Nat} {here place spare : Location} {front : List String}
  {last name other suffix : String} {path second backup : Path}

/-! ### The last name -/

/-- The last of some names is looked for in a directory, and so is any other that takes its place
behind the same names. -/
def LeadsBeside (fs : FileSystem) (links : Nat) (here : Location) (front : List String)
    (last : String) (place : Location) : Prop :=
  ∃ fewer parent, Leads fs .entry fewer parent [last] place ∧
    ∀ other target, Leads fs .entry fewer parent [other] target →
      Leads fs .entry links here (front ++ [other]) target

theorem Leads.beside (h : Leads fs .entry links here [last] place) :
    LeadsBeside fs links here [] last place :=
  ⟨links, here, h, fun _ _ hother => hother⟩

/-- What comes before does not matter to names beside each other. -/
theorem LeadsBeside.prepend {start : Location} {more : Nat} {before : List String}
    (h : LeadsBeside fs links here front last place)
    (hbefore : ∀ other target, Leads fs .entry links here (front ++ [other]) target →
      Leads fs .entry more start (before ++ [other]) target) :
    LeadsBeside fs more start before last place := by
  obtain ⟨fewer, parent, hlast, hothers⟩ := h
  exact ⟨fewer, parent, hlast, fun other target hother => hbefore _ _ (hothers other target hother)⟩

/-- The names before the last one lead to a directory, the same for every last name. -/
theorem Leads.split_last (h : Leads fs .entry links here (front ++ [last]) place) :
    LeadsBeside fs links here front last place := by
  generalize hnames : front ++ [last] = names at h
  -- A name is the last one, and then its own step is the only one, or it stands in front.
  induction h generalizing front with
  | done => simp at hnames
  | stay hdir hname hrest ih =>
    rcases List.append_eq_cons_iff.mp hnames with ⟨rfl, hlast⟩ | ⟨front, rfl, hrest'⟩
    · cases hlast
      exact (Leads.stay hdir hname hrest).beside
    · exact (ih hrest'.symm).prepend fun _ _ h => .stay hdir hname h
  | up hsearch hrest ih =>
    rcases List.append_eq_cons_iff.mp hnames with ⟨rfl, hlast⟩ | ⟨front, rfl, hrest'⟩
    · cases hlast
      exact (Leads.up hsearch hrest).beside
    · exact (ih hrest'.symm).prepend fun _ _ h => .up hsearch h
  | enter henters hnode hlink hrest ih =>
    rcases List.append_eq_cons_iff.mp hnames with ⟨rfl, hlast⟩ | ⟨front, rfl, hrest'⟩
    · cases hlast
      exact (Leads.enter henters hnode hlink hrest).beside
    · exact (ih hrest'.symm).prepend fun _ _ h =>
        .enter { henters with asksFile := by simp } hnode hlink h
  | @follow _ _ _ _ target _ henters hnode hlast hrest ih =>
    rcases List.append_eq_cons_iff.mp hnames with ⟨rfl, hnil⟩ | ⟨front, rfl, hrest'⟩
    · cases hnil
      exact (Leads.follow henters hnode hlast hrest).beside
    · -- The names that the link stands for come in front as well.
      have hlonger : (slashPieces target ++ front) ++ [last] = _ :=
        (List.append_assoc ..).trans (congrArg _ hrest'.symm)
      refine (ih hlonger).prepend fun other _ h => ?_
      rw [List.append_assoc] at h
      exact .follow { henters with asksFile := by simp } hnode (by simp) h
  | stop henters hnode haim =>
    rcases List.append_eq_cons_iff.mp hnames with ⟨rfl, hlast⟩ | ⟨front, rfl, hrest'⟩
    · cases hlast
      exact (Leads.stop henters hnode haim).beside
    · simp at hrest'
  | absent henters hnode =>
    rcases List.append_eq_cons_iff.mp hnames with ⟨rfl, hlast⟩ | ⟨front, rfl, hrest'⟩
    · cases hlast
      exact (Leads.absent henters hnode).beside
    · simp at hrest'

/-- A name that is looked for in a directory: neither nothing nor dots. -/
structure IsStep (name : String) : Prop where
  ne_empty : name ≠ ""
  ne_dot : name ≠ "."
  ne_dots : name ≠ ".."

theorem Enters.isStep {aim : Aim} {rest : List String} (h : fs.Enters aim here name rest) :
    IsStep name :=
  ⟨h.ne_empty, h.ne_dot, h.ne_dots⟩

/-- A single name stays in the directory, or goes up from it, or stands in it. -/
theorem Leads.single_cases (h : Leads fs .entry links here [name] place) :
    (name = "" ∨ name = ".") ∧ fs.has Node.isDirectory place ∨
      name = ".." ∧ place = here.dropLast ∧ fs.has Node.isDirectory here ∨
        fs.Enters .entry here name [] ∧ place = here ++ [name] := by
  cases h with
  | stay hdir hname hrest =>
    cases hrest
    exact Or.inl ⟨hname.imp_right And.left, hdir⟩
  | up hsearch hrest =>
    cases hrest
    exact Or.inr (Or.inl ⟨rfl, rfl, has_mono Node.isDirectory_of_isSearchable hsearch⟩)
  | enter henters _ _ hrest =>
    cases hrest
    exact Or.inr (Or.inr ⟨henters, rfl⟩)
  | follow _ _ hlast _ => exact absurd (hlast rfl) (by decide)
  | stop henters _ _ | absent henters _ => exact Or.inr (Or.inr ⟨henters, rfl⟩)

theorem Leads.of_isStep (h : Leads fs .entry links here [name] place) (hname : IsStep name) :
    fs.Enters .entry here name [] ∧ place = here ++ [name] := by
  rcases h.single_cases with ⟨rfl | rfl, -⟩ | ⟨rfl, -⟩ | henters
  · exact absurd rfl hname.ne_empty
  · exact absurd rfl hname.ne_dot
  · exact absurd rfl hname.ne_dots
  · exact henters

/-! ### More nodes -/

/-- All nodes of a file system are in another one too, where there may be more. -/
structure Within (fs fs' : FileSystem) : Prop where
  workingDirectory : fs'.workingDirectory = fs.workingDirectory
  node? : ∀ other node, fs.node? other = some node → fs'.node? other = some node

theorem Within.has (h : Within fs fs') {sort : Node → Bool} (hplace : fs.has sort place) :
    fs'.has sort place := by
  obtain ⟨node, hnode, hsort⟩ := has_eq_true_iff.mp hplace
  exact has_eq_true_iff.mpr ⟨node, h.node? _ _ hnode, hsort⟩

theorem within_remove (fs : FileSystem) (place : Location) : Within (fs.remove place) fs := by
  refine ⟨rfl, fun other node hnode => ?_⟩
  by_cases hother : other = []
  · subst hother
    exact hnode
  · rw [node?_of_ne_nil _ hother, remove, Std.ExtTreeMap.getElem?_erase] at hnode
    split at hnode
    · cases hnode
    · rwa [node?_of_ne_nil _ hother]

theorem Enters.within {aim : Aim} {rest : List String} (h : fs.Enters aim here name rest)
    (hwithin : Within fs fs') : fs'.Enters aim here name rest :=
  { h with isSearchable := hwithin.has h.isSearchable }

/-- Where names lead, they lead with more nodes too: something may have come to stand at the place
itself, but nothing in the way. -/
theorem Leads.within {names : List String} (h : Leads fs .entry links here names place)
    (hwithin : Within fs fs') : Leads fs' .entry links here names place := by
  induction h with
  | done => exact .done
  | stay hdir hname _ ih =>
    exact .stay (hwithin.has hdir) (hname.imp_right (.imp_right hwithin.has)) ih
  | up hsearch _ ih => exact .up (hwithin.has hsearch) ih
  | enter henters hnode hlink _ ih =>
    exact .enter (henters.within hwithin) (hwithin.node? _ _ hnode) hlink ih
  | follow henters hnode hlast _ ih =>
    exact .follow (henters.within hwithin) (hwithin.node? _ _ hnode) hlast ih
  | stop henters _ _ | absent henters _ => exact (henters.within hwithin).leads_entry

theorem Within.locate (h : Within fs fs') (hlocate : fs.locate .entry path = .ok place) :
    fs'.locate .entry path = .ok place := by
  obtain ⟨hshort, hleads⟩ := locate_eq_ok_iff.mp hlocate
  have hstart : fs'.startOf path = fs.startOf path := by
    rw [startOf, startOf, h.workingDirectory]
  exact locate_eq_ok_iff.mpr ⟨hshort, hstart ▸ hleads.within h⟩

/-- What has been removed is not found by the path that led to it, nor is anything else. -/
theorem find_ne_ok_of_remove (hplace : place ≠ []) (hlocate : fs.locate .entry path = .ok place)
    (found : Location × Node) : (fs.remove place).find .entry path ≠ .ok found := by
  intro hfind
  obtain ⟨hlocate', hnode⟩ := find_eq_ok_iff.mp hfind
  have hsame := (within_remove fs place).locate hlocate'
  rw [hlocate, Except.ok.injEq] at hsame
  rw [← hsame, node?_remove _ hplace, if_pos rfl] at hnode
  cases hnode

/-! ### Two paths beside each other -/

/-- A path is looked for in a directory by its last name, and so is every other path beside it. -/
theorem locate_last (hsteps : path.steps = front ++ [last]) (hlast : IsStep last)
    (h : fs.locate .entry path = .ok place) :
    ∃ parent, place = parent ++ [last] ∧ fs.Enters .entry parent last [] ∧
      ∀ second other, second.anchor = path.anchor → second.steps = front ++ [other] →
        second.toString.utf8ByteSize < pathLimit → fs.Enters .entry parent other [] →
          fs.locate .entry second = .ok (parent ++ [other]) := by
  have hleads := (locate_eq_ok_iff.mp h).2
  rw [hsteps] at hleads
  obtain ⟨fewer, parent, hparent, hothers⟩ := hleads.split_last
  obtain ⟨henters, rfl⟩ := hparent.of_isStep hlast
  refine ⟨parent, rfl, henters, fun second other hanchor hother hshort henters' => ?_⟩
  rw [locate_eq_ok_iff, startOf, hanchor, hother]
  exact ⟨hshort, hothers other _ henters'.leads_entry⟩

/-- Two paths beside each other have their places beside each other, and where a file system leads
from the one to its place it leads from the other. -/
theorem locate_beside (hanchor : second.anchor = path.anchor)
    (hsteps : path.steps = front ++ [last]) (hsteps' : second.steps = front ++ [other])
    (hlast : IsStep last) (hother : IsStep other) (h : fs.locate .entry path = .ok place)
    (h' : fs.locate .entry second = .ok spare) :
    ∃ parent, place = parent ++ [last] ∧ spare = parent ++ [other] ∧
      ∀ fs' : FileSystem, fs'.locate .entry second = .ok spare →
        fs'.locate .entry path = .ok place := by
  obtain ⟨parent, rfl, henters, hbeside⟩ := locate_last hsteps hlast h
  obtain ⟨parent', rfl, henters', hbeside'⟩ := locate_last hsteps' hother h'
  obtain ⟨hshort, -⟩ := locate_eq_ok_iff.mp h
  -- The other path is at once beside this one and at its own place.
  have hsame : parent' = parent := by
    have hplace := hbeside' path last hanchor.symm hsteps hshort
      { henters with isSearchable := henters'.isSearchable }
    rw [h, Except.ok.injEq] at hplace
    exact (List.append_inj' hplace rfl).1.symm
  subst hsame
  refine ⟨parent', rfl, rfl, fun fs' hspare => ?_⟩
  obtain ⟨parent, hparent, henters'', hbeside''⟩ := locate_last hsteps' hother hspare
  obtain ⟨rfl, -⟩ := List.append_inj' hparent rfl
  exact hbeside'' path last hanchor.symm hsteps hshort
    { henters with isSearchable := henters''.isSearchable }

/-- What is no directory stands in one under a name of its own. -/
theorem isStep_of_not_directory (hhome : fs.HomeReached) (hsteps : path.steps = front ++ [last])
    (h : fs.locate .entry path = .ok place) (hdir : ¬ fs.has Node.isDirectory place) :
    IsStep last := by
  have hleads := (locate_eq_ok_iff.mp h).2
  rw [hsteps] at hleads
  obtain ⟨fewer, parent, hparent, hothers⟩ := hleads.split_last
  rcases hparent.single_cases with ⟨-, hplace⟩ | ⟨-, rfl, hparentDir⟩ | ⟨henters, -⟩
  · exact absurd hplace hdir
  · -- The names in front of the dots lead to a reached directory, and above that is another.
    have hfront := hothers "" parent (.stay hparentDir (Or.inl rfl) .done)
    have hreached : fs.Reached parent := by
      refine hfront.reached (hhome.startOf path) fun name hname => ?_
      rcases List.mem_append.mp hname with hname | hname
      · exact no_slash_of_mem_steps (hsteps ▸ List.mem_append_left _ hname)
      · obtain rfl := List.mem_singleton.mp hname
        decide
    exact absurd hreached.isDirectory_dropLast hdir
  · exact henters.isStep

/-! ### A path and its backup -/

theorem slashPieces_append {s t last first : String} {before after : List String}
    (hs : slashPieces s = before ++ [last]) (ht : slashPieces t = first :: after) :
    slashPieces (s ++ t) = before ++ (last ++ first) :: after := by
  obtain ⟨front, rest, hsplit, rfl, hrest⟩ := List.map_eq_append_iff.mp hs
  obtain ⟨piece, rfl, rfl⟩ := List.map_eq_singleton_iff.mp hrest
  obtain ⟨next, more, hsplit', rfl, rfl⟩ := List.map_eq_cons_iff.mp ht
  rw [slashPieces, String.toList_append, splitOn_append hsplit hsplit', List.map_append,
    List.map_cons, String.ofList_append]

/-- A name stays one when something is written behind it. -/
theorem IsStep.append (h : IsStep name) (other : String) : IsStep (name ++ other) := by
  have hchars (s : String) (hs : name ++ other = s) : name.toList ++ other.toList = s.toList := by
    rw [← String.toList_append, hs]
  refine ⟨fun hs => ?_, fun hs => ?_, fun hs => ?_⟩
  · exact h.ne_empty (String.append_eq_empty_iff.mp hs).1
  · rcases List.append_eq_singleton_iff.mp (hchars _ hs) with ⟨hnil, -⟩ | ⟨hdot, -⟩
    · exact h.ne_empty (String.toList_eq_nil_iff.mp hnil)
    · exact h.ne_dot (String.toList_inj.mp hdot)
  · rcases List.append_eq_cons_iff.mp (hchars _ hs) with ⟨hnil, -⟩ | ⟨rest, hname, hrest⟩
    · exact h.ne_empty (String.toList_eq_nil_iff.mp hnil)
    · rcases List.append_eq_singleton_iff.mp hrest.symm with ⟨rfl, -⟩ | ⟨rfl, -⟩
      · exact h.ne_dot (String.toList_inj.mp hname)
      · exact h.ne_dots (String.toList_inj.mp hname)

/-- The last step of a path goes on as the suffix begins. Where a slash is in the suffix, only
nothing and dots come behind it. -/
theorem steps_backup (h : path.backup suffix = .ok backup) (hsteps : path.steps = front ++ [last])
    (hlast : IsStep last) :
    backup.anchor = path.anchor ∧ ∃ first rest, backup.steps = front ++ (last ++ first) :: rest ∧
      ∀ name ∈ rest, name = "" ∨ name = "." := by
  obtain ⟨hname, hsingle, rfl⟩ := Path.backup_eq_ok_iff.mp h
  obtain ⟨names, hnames⟩ := Path.exists_names_of_name hname
  generalize path.name = given at hname hsingle hnames ⊢
  obtain ⟨before, piece, hpieces⟩ :=
    (List.eq_nil_or_concat (slashPieces given)).resolve_left (by simp [slashPieces])
  obtain ⟨first, rest, hsuffix⟩ :=
    List.exists_cons_of_ne_nil (show slashPieces suffix ≠ [] by simp [slashPieces])
  rw [List.concat_eq_append] at hpieces
  have hjoined := slashPieces_append hpieces hsuffix
  obtain ⟨rfl, hpiece⟩ : names.flatMap slashPieces ++ before = front ∧ [piece] = [last] := by
    rw [Path.steps_of_names (by simp [hnames]), hnames, List.flatMap_append,
      List.flatMap_singleton, hpieces, ← List.append_assoc] at hsteps
    exact List.append_inj' hsteps rfl
  cases hpiece
  refine ⟨rfl, first, rest, ?_, ?_⟩
  · rw [Path.steps_of_names (by simp), hnames, List.dropLast_concat, List.flatMap_append,
      List.flatMap_singleton, hjoined, List.append_assoc]
  · -- One name is kept of all the pieces, and that is the one that was there.
    have hkept := hlast.append first
    have hcount : ((slashPieces (given ++ suffix)).filter
        fun piece => piece != "" && piece != ".").length = 1 := by
      have hall := Bool.and_eq_true_iff.mp hsingle
      exact beq_iff_eq.mp hall.2
    rw [hjoined, List.filter_append,
      List.filter_cons_of_pos (by simp [hkept.ne_empty, hkept.ne_dot]), List.length_append,
      List.length_cons] at hcount
    have hnone : (rest.filter fun piece => piece != "" && piece != ".") = [] :=
      List.length_eq_zero_iff.mp (by omega)
    intro name hname
    have := List.filter_eq_nil_iff.mp hnone name hname
    simpa [Classical.or_iff_not_imp_left] using this

theorem steps_ne_nil (h : path.backup suffix = .ok backup) : path.steps ≠ [] := by
  obtain ⟨names, hnames⟩ := Path.exists_names_of_name (Path.backup_eq_ok_iff.mp h).1
  rw [Path.steps_of_names (by simp [hnames]), hnames, List.flatMap_append, List.flatMap_singleton]
  simp [slashPieces]

theorem endsInDots_of_isStep (hsteps : path.steps = front ++ [last]) (hlast : IsStep last) :
    path.endsInDots = false := by
  simp [Path.endsInDots, hsteps, hlast.ne_dot, hlast.ne_dots]

/-- The places of a path and its backup, between which a node can be moved to and fro. -/
structure Aside (path backup : Path) (place spare : Location) : Prop where
  path_noDots : path.endsInDots = false
  backup_noDots : backup.endsInDots = false
  place_ne_nil : place ≠ []
  spare_ne_nil : spare ≠ []
  ne : place ≠ spare
  not_above : place.isPrefixOf spare = false
  not_below : spare.isPrefixOf place = false
  dropLast_eq : spare.dropLast = place.dropLast
  locate_path : ∀ fs : FileSystem, fs.locate .entry backup = .ok spare →
    fs.locate .entry path = .ok place
  locate_backup : ∀ fs : FileSystem, fs.locate .entry path = .ok place →
    fs.locate .entry backup = .ok spare

namespace Aside

variable (h : Aside path backup place spare)

include h

theorem symm : Aside backup path spare place where
  path_noDots := h.backup_noDots
  backup_noDots := h.path_noDots
  place_ne_nil := h.spare_ne_nil
  spare_ne_nil := h.place_ne_nil
  ne := h.ne.symm
  not_above := h.not_below
  not_below := h.not_above
  dropLast_eq := h.dropLast_eq.symm
  locate_path := h.locate_backup
  locate_backup := h.locate_path

/-- The two are in one directory. -/
theorem permitsChange (fs : FileSystem) : fs.permitsChange spare = fs.permitsChange place := by
  rw [FileSystem.permitsChange, h.dropLast_eq, FileSystem.permitsChange]

/-- What is no directory is moved over anything but a directory, if their directory may be changed. -/
theorem rename {node : Node} (hlocate : fs.locate .entry path = .ok place)
    (hnode : fs.node? place = some node) (hkind : node.isDirectory = false)
    (hover : ¬ fs.has Node.isDirectory spare) (hpermits : fs.permitsChange place) :
    fs.rename path backup = .ok ((fs.remove place).put spare node) :=
  rename_eq_ok hlocate (h.locate_backup fs hlocate) h.path_noDots h.backup_noDots hnode hkind hover
    h.ne h.not_below ⟨hpermits, h.permitsChange fs ▸ hpermits⟩

/-- Otherwise it is not moved. -/
theorem rename_denied {node : Node} (hlocate : fs.locate .entry path = .ok place)
    (hnode : fs.node? place = some node) (hkind : node.isDirectory = false)
    (hpermits : ¬ fs.permitsChange place) :
    fs.rename path backup = .error .permissionDenied := by
  have hrefuses : fs.refusesMove place spare node = some .permissionDenied := by
    rw [refusesMove, hkind, if_neg (by simp), if_neg (by simp [h.not_below]),
      if_pos fun hboth => hpermits hboth.1]
  rw [FileSystem.rename, hlocate, h.locate_backup fs hlocate]
  simp only [h.path_noDots, h.backup_noDots, hnode, hrefuses, Bool.or_self, Bool.false_eq_true,
    if_false, if_neg h.ne]

end Aside

/-- The backup of what is no directory has its place beside it, if there is no directory. -/
theorem aside_of_backup (hhome : fs.HomeReached) (hbackup : path.backup suffix = .ok backup)
    (h : fs.locate .entry path = .ok place) (hdir : ¬ fs.has Node.isDirectory place)
    (h' : fs.locate .entry backup = .ok spare) (hdir' : ¬ fs.has Node.isDirectory spare)
    (hne : place ≠ spare) : Aside path backup place spare := by
  obtain ⟨front, last, hsteps⟩ :=
    (List.eq_nil_or_concat path.steps).resolve_left (steps_ne_nil hbackup)
  rw [List.concat_eq_append] at hsteps
  have hlast := isStep_of_not_directory hhome hsteps h hdir
  obtain ⟨hanchor, first, rest, hsteps', hrest⟩ := steps_backup hbackup hsteps hlast
  -- Behind a slash there would be nothing or a dot, which leads to a directory.
  obtain rfl : rest = [] := by
    rcases List.eq_nil_or_concat rest with hnil | ⟨before, final, rfl⟩
    · exact hnil
    · rw [List.concat_eq_append, ← List.cons_append, ← List.append_assoc] at hsteps'
      have hfinal := isStep_of_not_directory hhome hsteps' h' hdir'
      rcases hrest final (by simp) with rfl | rfl
      · exact absurd rfl hfinal.ne_empty
      · exact absurd rfl hfinal.ne_dot
  have hother := hlast.append first
  obtain ⟨-, -, -, hback⟩ := locate_beside hanchor.symm hsteps' hsteps hother hlast h' h
  obtain ⟨parent, rfl, rfl, hforth⟩ := locate_beside hanchor hsteps hsteps' hlast hother h h'
  have hnot {a b : Location} (hlength : a.length = b.length) (hab : a ≠ b) :
      a.isPrefixOf b = false := by
    rw [← Bool.not_eq_true, List.isPrefixOf_iff_prefix]
    exact fun habove => hab (habove.eq_of_length hlength)
  exact ⟨endsInDots_of_isStep hsteps hlast, endsInDots_of_isStep hsteps' hother, by simp, by simp,
    hne, hnot (by simp) hne, hnot (by simp) hne.symm, by simp, hforth, hback⟩

end Letterhead.FileSystem
