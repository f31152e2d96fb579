import Letterhead.Session

/-!
# What a computation comes to

A computation on a session is carried out from a session on, and comes to a value or a fault together
with the session it leaves behind. This module says so for each way of putting computations together,
and for the questions and changes they are made of. The journal is written and never read, so what
becomes of the files depends on the files alone.

## Main definitions

* `exec` — what a computation comes to
* `Yields` — what a computation comes to, and what it makes of the files
* `Looks` — a computation that makes nothing of the files
* `Gives` — what every value of a computation is like
* `StopsOn` — what every fault of a computation is like
-/

namespace Letterhead

variable {α β : Type}

/-- The value or fault that a computation comes to, and the session it leaves behind. -/
def exec (m : SessionM α) (s : Session) : Except Fault α × Session := m.run s

@[simp] theorem exec_get (s : Session) : exec (get : SessionM Session) s = (.ok s, s) := rfl

theorem exec_bind (m : SessionM α) (f : α → SessionM β) (s : Session) :
    exec (m >>= f) s =
      match exec m s with
      | (.ok a, s') => exec (f a) s'
      | (.error fault, s') => (.error fault, s') := by
  rcases h : exec m s with ⟨r, s'⟩
  have hrun : m.run.run s = (r, s') := h
  change (m >>= f).run.run s = _
  rw [ExceptT.run_bind, StateT.run_bind, hrun]
  cases r <;> rfl

theorem exec_bind_of_ok {m : SessionM α} {a : α} {s s' : Session} (h : exec m s = (.ok a, s'))
    (f : α → SessionM β) : exec (m >>= f) s = exec (f a) s' := by
  rw [exec_bind, h]

theorem exec_bind_of_error {m : SessionM α} {fault : Fault} {s s' : Session}
    (h : exec m s = (.error fault, s')) (f : α → SessionM β) :
    exec (m >>= f) s = (.error fault, s') := by
  rw [exec_bind, h]

/-- A computation that comes to a value has come to one at each step. -/
theorem exists_of_exec_bind {m : SessionM α} {f : α → SessionM β} {b : β} {s s'' : Session}
    (h : exec (m >>= f) s = (.ok b, s'')) :
    ∃ a s', exec m s = (.ok a, s') ∧ exec (f a) s' = (.ok b, s'') := by
  rcases hexec : exec m s with ⟨fault | a, s'⟩
  · rw [exec_bind_of_error hexec] at h
    cases h
  · rw [exec_bind_of_ok hexec] at h
    exact ⟨a, s', rfl, h⟩

theorem exec_map (f : α → β) (m : SessionM α) (s : Session) :
    exec (f <$> m) s = ((exec m s).1.map f, (exec m s).2) := by
  rw [← bind_pure_comp, exec_bind]
  rcases exec m s with ⟨fault | a, s'⟩ <;> rfl

theorem exec_tryCatch (m : SessionM α) (handler : Fault → SessionM α) (s : Session) :
    exec (tryCatch m handler) s =
      match exec m s with
      | (.ok a, s') => (.ok a, s')
      | (.error fault, s') => exec (handler fault) s' := by
  rcases h : exec m s with ⟨r, s'⟩
  have hrun : m.run.run s = (r, s') := h
  change (tryCatch m handler).run.run s = _
  rw [ExceptT.run_tryCatch, StateT.run_bind, hrun]
  cases r <;> rfl

/-- A question leaves the session as it is, the journal too. -/
theorem exec_ask {path : Path} {question : FileSystem → Path → Except Problem α} {a : α}
    {s : Session} (h : question s.files path = .ok a) :
    exec (ask path question) s = (.ok a, s) := by
  rw [ask, exec_bind_of_ok (exec_get s), h]
  rfl

theorem exec_ask_error {path : Path} {question : FileSystem → Path → Except Problem α}
    {problem : Problem} {s : Session} (h : question s.files path = .error problem) :
    exec (ask path question) s = (.error (.file ⟨problem, path.toString, none⟩), s) := by
  rw [ask, exec_bind_of_ok (exec_get s), h]
  rfl

/-- A change of two files changes nothing else in the session. -/
theorem exec_changeBoth {path second : Path}
    {operation : FileSystem → Path → Path → Except Problem FileSystem} {s : Session}
    {files : FileSystem} (hnul : path.hasNul = false) (hnul' : second.hasNul = false)
    (h : operation s.files path second = .ok files) :
    exec (changeBoth path second operation) s = (.ok ⟨⟩, { s with files }) := by
  rw [changeBoth, hnul, hnul', Bool.or_self, if_neg Bool.false_ne_true]
  refine (exec_bind_of_ok (exec_get s) _).trans ?_
  rw [h]
  rfl

theorem exec_changeBoth_error {path second : Path}
    {operation : FileSystem → Path → Path → Except Problem FileSystem} {s : Session}
    {problem : Problem} (hnul : path.hasNul = false) (hnul' : second.hasNul = false)
    (h : operation s.files path second = .error problem) :
    exec (changeBoth path second operation) s =
      (.error (.file ⟨problem, path.toString, some second.toString⟩), s) := by
  rw [changeBoth, hnul, hnul', Bool.or_self, if_neg Bool.false_ne_true]
  refine (exec_bind_of_ok (exec_get s) _).trans ?_
  rw [h]
  rfl

theorem eq_of_exec_ask {path : Path} {question : FileSystem → Path → Except Problem α} {a : α}
    {s s' : Session} (h : exec (ask path question) s = (.ok a, s')) :
    question s.files path = .ok a ∧ s' = s := by
  cases hquestion : question s.files path with
  | error problem =>
    rw [exec_ask_error hquestion] at h
    cases h
  | ok answer =>
    rw [exec_ask hquestion] at h
    cases h
    exact ⟨rfl, rfl⟩

theorem eq_of_exec_askNamed {path : Path} {question : FileSystem → Path → Except Problem α} {a : α}
    {s s' : Session} (h : exec (askNamed path question) s = (.ok a, s')) :
    path.hasNul = false ∧ question s.files path = .ok a ∧ s' = s := by
  rw [askNamed] at h
  cases hnul : path.hasNul with
  | true =>
    rw [hnul, if_pos rfl] at h
    cases h
  | false =>
    rw [hnul, if_neg Bool.false_ne_true] at h
    exact ⟨rfl, eq_of_exec_ask h⟩

theorem eq_of_exec_change {path : Path} {operation : FileSystem → Path → Except Problem FileSystem}
    {s s' : Session} (h : exec (change path operation) s = (.ok ⟨⟩, s')) :
    path.hasNul = false ∧ ∃ files, operation s.files path = .ok files ∧ s' = { s with files } := by
  obtain ⟨files, between, hasked, hset⟩ := exists_of_exec_bind h
  obtain ⟨hnul, hfiles, rfl⟩ := eq_of_exec_askNamed hasked
  cases hset
  exact ⟨hnul, files, hfiles, rfl⟩

theorem eq_of_exec_changeBoth {path second : Path}
    {operation : FileSystem → Path → Path → Except Problem FileSystem} {s s' : Session}
    (h : exec (changeBoth path second operation) s = (.ok ⟨⟩, s')) :
    path.hasNul = false ∧ second.hasNul = false ∧
      ∃ files, operation s.files path second = .ok files ∧ s' = { s with files } := by
  rw [changeBoth] at h
  cases hnul : path.hasNul || second.hasNul with
  | true =>
    rw [hnul, if_pos rfl] at h
    cases h
  | false =>
    obtain ⟨hfirst, hsecond⟩ := Bool.or_eq_false_iff.mp hnul
    cases hoperation : operation s.files path second with
    | ok files =>
      have hexec := exec_changeBoth hfirst hsecond hoperation
      rw [changeBoth, h, Prod.mk.injEq] at hexec
      exact ⟨hfirst, hsecond, files, rfl, hexec.2⟩
    | error problem =>
      rw [hnul, if_neg Bool.false_ne_true, exec_bind_of_ok (exec_get s), hoperation] at h
      cases h

/-! ### What becomes of the files -/

/-- On the files `fs`, whatever the journal holds, a computation comes to `r` and leaves `fs'`. -/
def Yields (m : SessionM α) (fs : FileSystem) (r : Except Fault α) (fs' : FileSystem) : Prop :=
  ∀ s, s.files = fs → ∃ s', exec m s = (r, s') ∧ s'.files = fs'

namespace Yields

variable {fs fs' fs'' : FileSystem} {m : SessionM α} {f : α → SessionM β} {a : α} {fault : Fault}

theorem pure : Yields (pure a : SessionM α) fs (.ok a) fs :=
  fun s hs => ⟨s, rfl, hs⟩

theorem throw : Yields (throw fault : SessionM α) fs (.error fault) fs :=
  fun s hs => ⟨s, rfl, hs⟩

theorem note {level : Level} {message : Text} : Yields (note level message) fs (.ok ⟨⟩) fs :=
  fun s hs => ⟨s.record level message, rfl, hs⟩

theorem bind {r : Except Fault β} (hm : Yields m fs (.ok a) fs') (hf : Yields (f a) fs' r fs'') :
    Yields (m >>= f) fs r fs'' := by
  intro s hs
  obtain ⟨s', hexec, hs'⟩ := hm s hs
  obtain ⟨s'', hexec', hs''⟩ := hf s' hs'
  exact ⟨s'', by rw [exec_bind_of_ok hexec, hexec'], hs''⟩

theorem bind_error (hm : Yields m fs (.error fault) fs') :
    Yields (m >>= f) fs (.error fault) fs' := by
  intro s hs
  obtain ⟨s', hexec, hs'⟩ := hm s hs
  exact ⟨s', exec_bind_of_error hexec f, hs'⟩

/-- Computations that leave the files as they are come to what their values come to. -/
theorem bind_still {r : Except Fault α} {g : α → Except Fault β} (hm : Yields m fs r fs)
    (hf : ∀ a, Yields (f a) fs (g a) fs) : Yields (m >>= f) fs (r >>= g) fs := by
  cases r with
  | error fault => exact hm.bind_error
  | ok a => exact hm.bind (hf a)

/-- A computation that looks at the session sees the files. -/
theorem get_bind {f : Session → SessionM β} {r : Except Fault β}
    (h : ∀ s, s.files = fs → Yields (f s) fs r fs') : Yields (get >>= f) fs r fs' := by
  intro s hs
  obtain ⟨s', hexec, hs'⟩ := h s hs s hs
  exact ⟨s', by rw [exec_bind_of_ok (exec_get s), hexec], hs'⟩

theorem unique {r r' : Except Fault α} (h : Yields m fs r fs') (h' : Yields m fs r' fs'') :
    r = r' ∧ fs' = fs'' := by
  obtain ⟨s', hexec, hs'⟩ := h ⟨fs, []⟩ rfl
  obtain ⟨s'', hexec', hs''⟩ := h' ⟨fs, []⟩ rfl
  rw [hexec] at hexec'
  cases hexec'
  exact ⟨rfl, hs'.symm.trans hs''⟩

theorem tryCatch {handler : Fault → SessionM α} (hm : Yields m fs (.ok a) fs') :
    Yields (tryCatch m handler) fs (.ok a) fs' := by
  intro s hs
  obtain ⟨s', hexec, hs'⟩ := hm s hs
  exact ⟨s', by rw [exec_tryCatch, hexec], hs'⟩

theorem tryCatch_error {handler : Fault → SessionM α} {r : Except Fault α}
    (hm : Yields m fs (.error fault) fs') (hhandler : Yields (handler fault) fs' r fs'') :
    Yields (MonadExcept.tryCatch m handler) fs r fs'' := by
  intro s hs
  obtain ⟨s', hexec, hs'⟩ := hm s hs
  obtain ⟨s'', hexec', hs''⟩ := hhandler s' hs'
  refine ⟨s'', ?_, hs''⟩
  rw [exec_tryCatch, hexec]
  exact hexec'

theorem exec_eq {s : Session} {r : Except Fault α} (h : Yields m s.files r fs') :
    ∃ s', exec m s = (r, s') ∧ s'.files = fs' := h s rfl

theorem exec_fst {r : Except Fault α} (h : Yields m fs r fs') : (exec m ⟨fs, []⟩).1 = r := by
  obtain ⟨s', hexec, -⟩ := h ⟨fs, []⟩ rfl
  rw [hexec]

/-- What a computation comes to is found by carrying it out. -/
theorem of_exec {r r' : Except Fault α} (h : Yields m fs r fs')
    (hr : (exec m ⟨fs, []⟩).1 = r') : Yields m fs r' fs' := by
  rwa [← hr, h.exec_fst]

/-! Questions and changes. -/

variable {path second : Path}

theorem ask {question : FileSystem → Path → Except Problem α} (h : question fs path = .ok a) :
    Yields (ask path question) fs (.ok a) fs :=
  fun s hs => ⟨s, exec_ask (hs ▸ h), hs⟩

theorem ask_error {question : FileSystem → Path → Except Problem α} {problem : Problem}
    (h : question fs path = .error problem) :
    Yields (Letterhead.ask path question) fs (.error (.file ⟨problem, path.toString, none⟩)) fs :=
  fun s hs => ⟨s, exec_ask_error (hs ▸ h), hs⟩

theorem askNamed {question : FileSystem → Path → Except Problem α} (hnul : path.hasNul = false)
    (h : question fs path = .ok a) : Yields (askNamed path question) fs (.ok a) fs := by
  rw [Letterhead.askNamed, hnul]
  exact ask h

theorem change {operation : FileSystem → Path → Except Problem FileSystem}
    (hnul : path.hasNul = false) (h : operation fs path = .ok fs') :
    Yields (change path operation) fs (.ok ⟨⟩) fs' := by
  refine (askNamed hnul h).bind fun s hs => ⟨{ s with files := fs' }, rfl, rfl⟩

theorem changeBoth {operation : FileSystem → Path → Path → Except Problem FileSystem}
    (hnul : path.hasNul = false) (hnul' : second.hasNul = false)
    (h : operation fs path second = .ok fs') :
    Yields (changeBoth path second operation) fs (.ok ⟨⟩) fs' :=
  fun s hs => ⟨{ s with files := fs' }, exec_changeBoth hnul hnul' (hs ▸ h), rfl⟩

end Yields

variable {path second : Path}

/-- A question is answered, or it fails; the files stay as they are. -/
theorem yields_ask_or_fails (path : Path) (question : FileSystem → Path → Except Problem α)
    (fs : FileSystem) :
    (∃ fault, Yields (ask path question) fs (.error fault) fs) ∨
      ∃ a, question fs path = .ok a ∧ Yields (ask path question) fs (.ok a) fs := by
  cases h : question fs path with
  | error problem => exact Or.inl ⟨_, .ask_error h⟩
  | ok a => exact Or.inr ⟨a, rfl, .ask h⟩

theorem yields_askNamed_or_fails (path : Path) (question : FileSystem → Path → Except Problem α)
    (fs : FileSystem) :
    (∃ fault, Yields (askNamed path question) fs (.error fault) fs) ∨
      ∃ a, path.hasNul = false ∧ question fs path = .ok a ∧
        Yields (askNamed path question) fs (.ok a) fs := by
  cases hnul : path.hasNul with
  | true =>
    rw [askNamed, hnul]
    exact Or.inl ⟨.embeddedNul, .throw⟩
  | false =>
    rw [askNamed, hnul]
    rcases yields_ask_or_fails path question fs with hfails | ⟨a, hquestion, h⟩
    · exact Or.inl hfails
    · exact Or.inr ⟨a, rfl, hquestion, h⟩

/-- A change of two files is made, or it fails without effect. -/
theorem yields_changeBoth_or_fails (path second : Path)
    (operation : FileSystem → Path → Path → Except Problem FileSystem) (fs : FileSystem) :
    (∃ fault, Yields (changeBoth path second operation) fs (.error fault) fs) ∨
      ∃ fs', path.hasNul = false ∧ second.hasNul = false ∧ operation fs path second = .ok fs' ∧
        Yields (changeBoth path second operation) fs (.ok ⟨⟩) fs' := by
  cases hnul : path.hasNul || second.hasNul with
  | true =>
    -- A name that no file can have is refused before the files are asked.
    left
    refine ⟨.embeddedNul, fun s hs => ⟨s, ?_, hs⟩⟩
    rw [changeBoth, hnul]
    rfl
  | false =>
    obtain ⟨hfirst, hsecond⟩ := Bool.or_eq_false_iff.mp hnul
    cases h : operation fs path second with
    | ok fs' => exact Or.inr ⟨fs', hfirst, hsecond, rfl, .changeBoth hfirst hsecond h⟩
    | error problem =>
      left
      refine ⟨.file ⟨problem, path.toString, some second.toString⟩, fun s hs => ⟨s, ?_, hs⟩⟩
      rw [changeBoth, hnul, if_neg Bool.false_ne_true]
      refine (exec_bind_of_ok (exec_get s) _).trans ?_
      rw [hs, h]
      rfl

/-! ### Computations that only look -/

/-- A computation that comes to a value or a fault and leaves the files as they are. -/
def Looks (m : SessionM α) : Prop := ∀ fs, ∃ r, Yields m fs r fs

namespace Looks

variable {m : SessionM α} {f : α → SessionM β}

theorem pure (a : α) : Looks (pure a : SessionM α) := fun _ => ⟨.ok a, .pure⟩

theorem throw (fault : Fault) : Looks (throw fault : SessionM α) := fun _ => ⟨.error fault, .throw⟩

theorem note (level : Level) (message : Text) : Looks (note level message) :=
  fun _ => ⟨.ok ⟨⟩, .note⟩

theorem bind (hm : Looks m) (hf : ∀ a, Looks (f a)) : Looks (m >>= f) := by
  intro fs
  obtain ⟨r, h⟩ := hm fs
  cases r with
  | error fault => exact ⟨.error fault, h.bind_error⟩
  | ok a =>
    obtain ⟨r, h'⟩ := hf a fs
    exact ⟨r, h.bind h'⟩

theorem tryCatch {handler : Fault → SessionM α} (hm : Looks m)
    (hhandler : ∀ fault, Looks (handler fault)) : Looks (tryCatch m handler) := by
  intro fs
  obtain ⟨r, h⟩ := hm fs
  cases r with
  | ok a => exact ⟨.ok a, h.tryCatch⟩
  | error fault =>
    obtain ⟨r, h'⟩ := hhandler fault fs
    exact ⟨r, h.tryCatch_error h'⟩

theorem askNamed (path : Path) (question : FileSystem → Path → Except Problem α) :
    Looks (askNamed path question) := by
  intro fs
  rcases yields_askNamed_or_fails path question fs with ⟨fault, h⟩ | ⟨a, -, -, h⟩
  · exact ⟨.error fault, h⟩
  · exact ⟨.ok a, h⟩

end Looks

/-! ### What the values are like -/

/-- Every value that a computation comes to is as `P` says, wherever it is carried out. -/
def Gives (P : α → Prop) (m : SessionM α) : Prop := ∀ s a s', exec m s = (.ok a, s') → P a

namespace Gives

variable {m : SessionM α} {f : α → SessionM β} {P : α → Prop} {Q : β → Prop}

theorem pure {a : α} (ha : P a) : Gives P (pure a : SessionM α) := by
  intro s a' s' h
  cases h
  exact ha

theorem throw (fault : Fault) : Gives P (throw fault : SessionM α) := by
  intro s a s' h
  cases h

theorem bind (hm : Gives P m) (hf : ∀ a, P a → Gives Q (f a)) : Gives Q (m >>= f) := by
  intro s b s'' h
  obtain ⟨a, s', hexec, hlast⟩ := exists_of_exec_bind h
  exact hf a (hm s a s' hexec) s' b s'' hlast

/-- What comes before the last step does not matter if that gives what is wanted from any value. -/
theorem bind_last (m : SessionM α) (hf : ∀ a, Gives Q (f a)) : Gives Q (m >>= f) :=
  bind (P := fun _ => True) (fun _ _ _ _ => trivial) fun a _ => hf a

theorem tryCatch {handler : Fault → SessionM α} (hm : Gives P m)
    (hhandler : ∀ fault, Gives P (handler fault)) : Gives P (tryCatch m handler) := by
  intro s a s'' h
  rw [exec_tryCatch] at h
  rcases hexec : exec m s with ⟨fault | a', s'⟩
  · rw [hexec] at h
    exact hhandler fault s' a s'' h
  · rw [hexec] at h
    cases h
    exact hm s _ _ hexec

end Gives

/-! ### What the faults are like -/

/-- Every fault that a computation stops on is as `P` says, wherever it is carried out. -/
def StopsOn (P : Fault → Prop) (m : SessionM α) : Prop :=
  ∀ s fault s', exec m s = (.error fault, s') → P fault

namespace StopsOn

variable {P : Fault → Prop} {Q : α → Prop} {m : SessionM α} {f : α → SessionM β}

theorem pure (a : α) : StopsOn P (pure a : SessionM α) := by
  intro s fault s' h
  cases h

theorem throw {fault : Fault} (hfault : P fault) : StopsOn P (throw fault : SessionM α) := by
  intro s fault' s' h
  cases h
  exact hfault

theorem note (level : Level) (message : Text) : StopsOn P (note level message) := by
  intro s fault s' h
  cases h

theorem get : StopsOn P (get : SessionM Session) := by
  intro s fault s' h
  cases h

theorem set (s : Session) : StopsOn P (set s : SessionM PUnit) := by
  intro s fault s' h
  cases h

theorem modify (g : Session → Session) : StopsOn P (modify g : SessionM PUnit) := by
  intro s fault s' h
  cases h

/-- What comes after a step has to stop well only for the values that the step gives. -/
theorem bind_of_gives (hm : StopsOn P m) (hgives : Gives Q m) (hf : ∀ a, Q a → StopsOn P (f a)) :
    StopsOn P (m >>= f) := by
  intro s fault s'' h
  rw [exec_bind] at h
  rcases hexec : exec m s with ⟨fault' | a, s'⟩
  · rw [hexec] at h
    cases h
    exact hm s _ _ hexec
  · rw [hexec] at h
    exact hf a (hgives s a s' hexec) s' fault s'' h

theorem bind (hm : StopsOn P m) (hf : ∀ a, StopsOn P (f a)) : StopsOn P (m >>= f) :=
  hm.bind_of_gives (Q := fun _ => True) (fun _ _ _ _ => trivial) fun a _ => hf a

theorem tryCatch {handler : Fault → SessionM α} (hm : StopsOn P m)
    (hhandler : ∀ fault, P fault → StopsOn P (handler fault)) :
    StopsOn P (tryCatch m handler) := by
  intro s fault s'' h
  rw [exec_tryCatch] at h
  rcases hexec : exec m s with ⟨fault' | a, s'⟩
  · rw [hexec] at h
    exact hhandler fault' (hm s _ _ hexec) s' fault s'' h
  · rw [hexec] at h
    cases h

/-- Nothing comes after a fault. -/
theorem throw_bind {fault : Fault} (hfault : P fault) : StopsOn P (MonadExcept.throw fault >>= f) :=
  (throw hfault).bind_of_gives (Gives.throw fault : Gives (fun _ => False) _) fun _ h => h.elim

/-! Questions and changes stop on what the file system says, and on names that no file can have. -/

section Files

variable {path second : Path} (hfile : ∀ error, P (.file error))

include hfile

theorem ask (path : Path) (question : FileSystem → Path → Except Problem α) :
    StopsOn P (ask path question) := by
  refine get.bind fun s => ?_
  split
  · exact .pure _
  · exact .throw (hfile _)

theorem askNamed (hnul : path.hasNul = true → P .embeddedNul)
    (question : FileSystem → Path → Except Problem α) : StopsOn P (askNamed path question) := by
  rw [Letterhead.askNamed]
  split
  · rename_i hpath
    exact .throw (hnul hpath)
  · exact ask hfile path question

theorem change (hnul : path.hasNul = true → P .embeddedNul)
    (operation : FileSystem → Path → Except Problem FileSystem) :
    StopsOn P (change path operation) :=
  (askNamed hfile hnul operation).bind fun _ => modify _

theorem changeBoth (hnul : path.hasNul = true ∨ second.hasNul = true → P .embeddedNul)
    (operation : FileSystem → Path → Path → Except Problem FileSystem) :
    StopsOn P (changeBoth path second operation) := by
  rw [Letterhead.changeBoth]
  split
  · rename_i hnames
    exact throw_bind (hnul (Bool.or_eq_true_iff.mp hnames))
  · refine get.bind fun s => ?_
    split
    · exact set _
    · exact .throw (hfile _)

end Files

end StopsOn

end Letterhead
