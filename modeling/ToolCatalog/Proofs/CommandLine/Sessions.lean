import ToolCatalog.CommandLine.Footprint

/-!
# What commands leave in a session

An error does not take back what a command has written before it, so that a command which fails half-way
could leave half of its work behind. None does: whatever can fail stands before the first step that shows
something or changes a file (`clean_runInvocation`). The commands without a file to write only show
something (`shows_runCommand`), and those with one write all of it (`runGenerate_eq_ok`, `runInit_eq_ok`).
-/

namespace ToolCatalog

theorem FileSystem.liftFault_eq_ok {α : Type} {x : Except FileFault α} {a : α}
    (h : liftFault x = .ok a) : x = .ok a := by
  cases x with
  | error fault => cases h
  | ok a' => cases h; rfl

namespace CommandLine

open Session

/-- Standard output and the files are as before; warnings do not count. -/
def Session.Unchanged (s t : Session) : Prop := t.stdout = s.stdout ∧ t.files = s.files

theorem Session.Unchanged.refl (s : Session) : s.Unchanged s := ⟨rfl, rfl⟩

theorem Session.Unchanged.trans {s t u : Session} (hst : s.Unchanged t) (htu : t.Unchanged u) :
    s.Unchanged u := ⟨htu.1.trans hst.1, htu.2.trans hst.2⟩

namespace SessionM

variable {α β : Type} {m : SessionM α} {f : α → SessionM β} {s t : Session}

/-! ## Steps one after the other -/

theorem bind_of_ok {a : α} (h : m s = .ok a t) : (m >>= f) s = f a t := by
  simp only [bind, EStateM.bind, h]

theorem bind_eq_ok {b : β} (h : (m >>= f) s = .ok b t) : ∃ a u, m s = .ok a u ∧ f a u = .ok b t := by
  cases hm : m s with
  | error e u =>
    simp only [bind, EStateM.bind, hm] at h
    cases h
  | ok a u =>
    rw [bind_of_ok hm] at h
    exact ⟨a, u, rfl, h⟩

theorem bind_eq_error {e : Error} (h : (m >>= f) s = .error e t) :
    m s = .error e t ∨ ∃ a u, m s = .ok a u ∧ f a u = .error e t := by
  cases hm : m s with
  | error e' u =>
    simp only [bind, EStateM.bind, hm] at h
    cases h
    exact .inl rfl
  | ok a u =>
    rw [bind_of_ok hm] at h
    exact .inr ⟨a, u, rfl, h⟩

/-! ## What steps may do -/

/-- Steps that leave no trace when they fail. -/
def Clean (m : SessionM α) : Prop := ∀ ⦃s e t⦄, m s = .error e t → s.Unchanged t

/-- Steps that leave no trace, failing or not. -/
structure Quiet (m : SessionM α) : Prop where
  clean : Clean m
  ends : ∀ ⦃s a t⦄, m s = .ok a t → s.Unchanged t

/-- Steps that never fail. -/
def Sure (m : SessionM α) : Prop := ∀ ⦃s e t⦄, m s ≠ .error e t

/-- The steps of a command that only shows something. -/
structure Shows (m : SessionM Nat) : Prop where
  clean : Clean m
  ends : ∀ ⦃s code t⦄, m s = .ok code t → code = 0 ∧ t.files = s.files

theorem Quiet.bind_clean (hm : Quiet m) (hf : ∀ a, Clean (f a)) : Clean (m >>= f) := by
  intro s e t h
  rcases bind_eq_error h with h | ⟨a, u, ha, h⟩
  · exact hm.clean h
  · exact (hm.ends ha).trans (hf a h)

theorem Clean.bind_sure (hm : Clean m) (hf : ∀ a, Sure (f a)) : Clean (m >>= f) := by
  intro s e t h
  rcases bind_eq_error h with h | ⟨a, u, -, h⟩
  · exact hm h
  · exact (hf a h).elim

theorem Quiet.bind (hm : Quiet m) (hf : ∀ a, Quiet (f a)) : Quiet (m >>= f) where
  clean := hm.bind_clean fun a => (hf a).clean
  ends := by
    intro s b t h
    obtain ⟨a, u, ha, h⟩ := bind_eq_ok h
    exact (hm.ends ha).trans ((hf a).ends h)

theorem Quiet.bind_shows {f : α → SessionM Nat} (hm : Quiet m) (hf : ∀ a, Shows (f a)) :
    Shows (m >>= f) where
  clean := hm.bind_clean fun a => (hf a).clean
  ends := by
    intro s code t h
    obtain ⟨a, u, ha, h⟩ := bind_eq_ok h
    obtain ⟨hcode, hfiles⟩ := (hf a).ends h
    exact ⟨hcode, hfiles.trans (hm.ends ha).2⟩

/-! ## Single steps -/

theorem quiet_pure (a : α) : Quiet (pure a) where
  clean := by intro s e t h; cases h
  ends := by intro s b t h; cases h; exact .refl _

theorem ofExcept_eq_ok {x : Except Error α} {a : α} (h : (ofExcept x : SessionM α) s = .ok a t) :
    x = .ok a ∧ t = s := by
  cases x with
  | error e => cases h
  | ok a' => cases h; exact ⟨rfl, rfl⟩

theorem ofExcept_eq_error {x : Except Error α} {e : Error} (h : (ofExcept x : SessionM α) s = .error e t) :
    x = .error e ∧ t = s := by
  cases x with
  | error e' => cases h; exact ⟨rfl, rfl⟩
  | ok a => cases h

theorem ofExcept_bind {x : Except Error α} {a : α} (h : x = .ok a) : (ofExcept x >>= f) s = f a s := by
  rw [h]
  rfl

theorem quiet_ofExcept (x : Except Error α) : Quiet (ofExcept x) where
  clean := by
    intro s e t h
    rw [(ofExcept_eq_error h).2]
    exact .refl s
  ends := by
    intro s a t h
    rw [(ofExcept_eq_ok h).2]
    exact .refl s

theorem getFiles_bind {f : FileSystem → SessionM β} : (getFiles >>= f) s = f s.files s := rfl

theorem quiet_getFiles : Quiet getFiles where
  clean := by intro s e t h; cases h
  ends := by intro s fs t h; cases h; exact .refl _

theorem quiet_complain (text : Text) : Quiet (complain text) where
  clean := by intro s e t h; cases h
  ends := by intro s u t h; cases h; exact ⟨rfl, rfl⟩

theorem shows_print (text : Text) : Shows (do print text; return 0) where
  clean := by intro s e t h; cases h
  ends := by intro s code t h; cases h; exact ⟨rfl, rfl⟩

theorem writeFile_eq_ok {path : Text} {bytes : List UInt8} {u : Unit}
    (h : writeFile path bytes s = .ok u t) :
    t = { s with files := t.files } ∧ s.files.write path bytes = .ok t.files := by
  unfold writeFile at h
  rw [getFiles_bind] at h
  obtain ⟨after, v, hafter, h⟩ := bind_eq_ok h
  obtain ⟨hafter, hv⟩ := ofExcept_eq_ok hafter
  cases h
  rw [hv]
  exact ⟨rfl, FileSystem.liftFault_eq_ok hafter⟩

theorem clean_writeFile (path : Text) (bytes : List UInt8) : Clean (writeFile path bytes) := by
  refine quiet_getFiles.bind_clean fun fs => Quiet.bind_clean (quiet_ofExcept _) fun after => ?_
  intro s e t h
  cases h

end SessionM

open SessionM

/-! ## Commands -/

section

variable {settings : Settings} {stdin : List UInt8}

theorem quiet_chooseFormat (name : Text) : Quiet (chooseFormat name) := by
  unfold chooseFormat
  split
  · exact quiet_pure _
  · exact (quiet_complain _).bind fun _ => quiet_pure _

theorem quiet_surveyText (path format : Text) : Quiet (surveyText settings path format) := by
  refine (quiet_chooseFormat format).bind fun _ => quiet_getFiles.bind fun fs => ?_
  exact (quiet_ofExcept _).bind fun _ => quiet_pure _

theorem shows_runList (path : Text) (extension : Option Text) (page : Nat) (perPage : Option Nat) :
    Shows (runList settings path extension page perPage) := by
  refine quiet_getFiles.bind_shows fun fs => ?_
  exact (quiet_ofExcept _).bind_shows fun _ => shows_print _

theorem shows_runRead (path root : Text) : Shows (runRead path root) := by
  refine quiet_getFiles.bind_shows fun fs => ?_
  exact (quiet_ofExcept _).bind_shows fun _ => shows_print _

theorem shows_runExtract (file : Text) (language : Option Text) (format : Text) (topLevelOnly : Bool) :
    Shows (runExtract settings stdin file language format topLevelOnly) := by
  refine (quiet_chooseFormat format).bind_shows fun _ => (quiet_ofExcept _).bind_shows fun _ => ?_
  refine quiet_getFiles.bind_shows fun fs => ?_
  exact (quiet_ofExcept _).bind_shows fun _ => shows_print _

theorem shows_runEmit (file : Text) (embedRequired : Bool) :
    Shows (runEmit settings stdin file embedRequired) := by
  refine quiet_getFiles.bind_shows fun fs => (quiet_ofExcept _).bind_shows fun _ => ?_
  exact (quiet_ofExcept _).bind_shows fun _ => shows_print _

theorem shows_runGenerate (path format : Text) : Shows (runGenerate settings path format none) :=
  (quiet_surveyText path format).bind_shows fun _ => shows_print _

theorem clean_runGenerate (path format out : Text) :
    Clean (runGenerate settings path format (some out)) := by
  refine (quiet_surveyText path format).bind_clean fun text => ?_
  exact (clean_writeFile out _).bind_sure fun _ s e t h => by cases h

/-- A survey that goes to a file is the one that would be shown. -/
theorem runGenerate_eq_ok {path format out : Text} {s t : Session} {code : Nat}
    (h : runGenerate settings path format (some out) s = .ok code t) :
    code = 0 ∧ t.stdout = s.stdout ∧ ∃ text,
      runGenerate settings path format none s =
        .ok 0 { t with stdout := s.stdout ++ text, files := s.files } ∧
      s.files.write out (Utf8.encode text) = .ok t.files := by
  obtain ⟨text, u, htext, h⟩ := bind_eq_ok h
  obtain ⟨_, v, hwrite, h⟩ := bind_eq_ok h
  cases h
  obtain ⟨hstdout, hfiles⟩ := (quiet_surveyText path format).ends htext
  obtain ⟨ht, hafter⟩ := writeFile_eq_ok hwrite
  refine ⟨rfl, ?_, text, ?_, hfiles ▸ hafter⟩
  · rw [ht, hstdout]
  · -- without an output the same text is there at the same point
    have hshown : runGenerate settings path format none s =
        .ok 0 { u with stdout := u.stdout ++ text } := bind_of_ok htext
    rw [hshown, hstdout, ht, ← hfiles]

theorem clean_runInit (force : Bool) : Clean (runInit force) := by
  -- a refusal does not fail, and after the write nothing can
  refine quiet_getFiles.bind_clean fun fs => ?_
  split
  · intro s e t h
    cases h
  · exact (clean_writeFile settingsFile _).bind_sure fun _ s e t h => by cases h

theorem runInit_eq_ok {force : Bool} {s t : Session} {code : Nat} (h : runInit force s = .ok code t) :
    (code = 1 ∧ force = false ∧ s.files.pathExists settingsFile = true ∧ s.Unchanged t) ∨
      code = 0 ∧ s.files.write settingsFile (Utf8.encode Settings.starter) = .ok t.files := by
  unfold runInit at h
  rw [getFiles_bind] at h
  split at h
  · rename_i hrefuse
    simp only [Bool.and_eq_true, Bool.not_eq_true'] at hrefuse
    cases h
    exact .inl ⟨rfl, hrefuse.2, hrefuse.1, rfl, rfl⟩
  · obtain ⟨_, u, hwrite, h⟩ := bind_eq_ok h
    cases h
    exact .inr ⟨rfl, (writeFile_eq_ok hwrite).2⟩

theorem shows_runCommand {command : Command} (hwrites : command.writes? = none) :
    Shows (runCommand stdin settings command) := by
  cases command with
  | list path extension page perPage => exact shows_runList path extension page perPage
  | read path root => exact shows_runRead path root
  | extract file language format topLevelOnly =>
    exact shows_runExtract file language format topLevelOnly
  | emit file embedRequired => exact shows_runEmit file embedRequired
  | generate path format output =>
    cases hwrites
    exact shows_runGenerate path format
  | init force => cases hwrites

theorem clean_runCommand (command : Command) : Clean (runCommand stdin settings command) := by
  cases hwrites : command.writes? with
  | none => exact (shows_runCommand hwrites).clean
  | some file =>
    cases command with
    | generate path format output =>
      cases hwrites
      exact clean_runGenerate path format file
    | init force => exact clean_runInit force
    | _ => cases hwrites

end

/-- A command that fails has shown nothing and changed no file. -/
theorem clean_runInvocation (stdin : List UInt8) (i : Invocation) : Clean (runInvocation stdin i) := by
  unfold runInvocation
  split
  · exact clean_runInit _
  · refine quiet_getFiles.bind_clean fun fs => ?_
    exact (quiet_ofExcept _).bind_clean fun settings => clean_runCommand _

end CommandLine

end ToolCatalog
