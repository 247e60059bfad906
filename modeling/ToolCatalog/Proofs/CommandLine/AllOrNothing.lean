import ToolCatalog.Proofs.CommandLine.Sessions
import ToolCatalog.Proofs.Files.Writes
import ToolCatalog.Proofs.Text.Utf8

/-!
# A run does all or nothing

There are five ways in which a run ends (`ends_run`): it fails, it refuses to overwrite a settings file, it
shows something and changes no file, it writes a survey in place of showing it, or it writes a settings
file. What holds of every run is read off these (`run_allOrNothing`).
-/

namespace ToolCatalog.CommandLine

open Session

/-! ## How a run ends -/

/-- The ways in which a run of a command line ends. -/
inductive Ends (fs : FileSystem) (stdin : List UInt8) (args : List Text) : Outcome → Prop where
  | failed (stderr : Text) : Ends fs stdin args ⟨failureCode, [], stderr, fs⟩
  | refused {config : Option Text} (stderr : Text) (hparse : parse args = .ok ⟨config, .init false⟩)
      (hexists : fs.pathExists settingsFile = true) : Ends fs stdin args ⟨1, [], stderr, fs⟩
  | shown (stdout stderr : Text) (hparse : ∀ i, parse args = .ok i → i.command.writes? = none) :
      Ends fs stdin args ⟨0, stdout, stderr, fs⟩
  /-- The text that would have been shown goes to a file. -/
  | surveyed {config : Option Text} {path format out text stderr : Text} {after : FileSystem}
      (hparse : parse args = .ok ⟨config, .generate path format (some out)⟩)
      (hshown : runInvocation stdin ⟨config, .generate path format none⟩ { files := fs } =
        .ok 0 ⟨text, stderr, fs⟩)
      (hwrite : fs.write out (Utf8.encode text) = .ok after) :
      Ends fs stdin args ⟨0, [], stderr, after⟩
  | initialized {config : Option Text} {force : Bool} {after : FileSystem} (stdout stderr : Text)
      (hparse : parse args = .ok ⟨config, .init force⟩)
      (hwrite : fs.write settingsFile (Utf8.encode Settings.starter) = .ok after) :
      Ends fs stdin args ⟨0, stdout, stderr, after⟩

theorem bind_eq_ok {ε α β : Type} {x : Except ε α} {f : α → Except ε β} {b : β}
    (h : (x >>= f) = .ok b) : ∃ a, x = .ok a ∧ f a = .ok b := by
  cases x with
  | error e => cases h
  | ok a => exact ⟨a, rfl, h⟩

section

variable {fs : FileSystem} {stdin : List UInt8} {args : List Text} {config : Option Text} {code : Nat}
  {t : Session}

theorem ends_init {force : Bool} (hparse : parse args = .ok ⟨config, .init force⟩)
    (h : runInit force { files := fs } = .ok code t) :
    Ends fs stdin args ⟨code, t.stdout, t.stderr, t.files⟩ := by
  rcases runInit_eq_ok h with ⟨rfl, rfl, hexists, hstdout, hfiles⟩ | ⟨rfl, hwrite⟩
  · rw [hstdout, hfiles]
    exact .refused _ hparse hexists
  · exact .initialized _ _ hparse hwrite

/-- A command other than `init`, which has its settings first. -/
theorem ends_command {command : Command} (hparse : parse args = .ok ⟨config, command⟩)
    (hinit : ∀ force, command ≠ .init force)
    (h : (do
      let settings ← ofExcept ((← getFiles).loadSettings (config.getD settingsFile))
      runCommand stdin settings command) { files := fs } = .ok code t) :
    Ends fs stdin args ⟨code, t.stdout, t.stderr, t.files⟩ := by
  rw [SessionM.getFiles_bind] at h
  obtain ⟨settings, u, hload, h⟩ := SessionM.bind_eq_ok h
  obtain ⟨-, rfl⟩ := SessionM.ofExcept_eq_ok hload
  cases hwrites : command.writes? with
  | none =>
    obtain ⟨rfl, hfiles⟩ := (shows_runCommand hwrites).ends h
    rw [hfiles]
    refine .shown _ _ ?_
    intro i hi
    cases hparse.symm.trans hi
    exact hwrites
  | some file =>
    cases command with
    | generate path format output =>
      cases hwrites
      obtain ⟨rfl, hstdout, text, hshown, hwrite⟩ := runGenerate_eq_ok h
      rw [hstdout]
      refine .surveyed hparse ?_ hwrite
      change (ofExcept (fs.loadSettings _) >>= fun settings =>
        runGenerate settings path format none) { files := fs } = _
      exact (SessionM.bind_of_ok hload).trans hshown
    | init force => exact absurd rfl (hinit force)
    | _ => cases hwrites

theorem ends_invocation {i : Invocation} (hparse : parse args = .ok i) :
    Ends fs stdin args (finish (runInvocation stdin i { files := fs })) := by
  cases h : runInvocation stdin i { files := fs } with
  | error e t =>
    obtain ⟨hstdout, hfiles⟩ := clean_runInvocation stdin i h
    change Ends fs stdin args ⟨failureCode, t.stdout, _, t.files⟩
    rw [hstdout, hfiles]
    exact .failed _
  | ok code t =>
    obtain ⟨config, command⟩ := i
    cases command with
    | init force => exact ends_init hparse h
    | _ => exact ends_command hparse (by simp) h

end

/-- Every run ends in one of these ways. -/
theorem ends_run (fs : FileSystem) (stdin : List UInt8) (args : List Text) :
    Ends fs stdin args (run fs stdin args) := by
  unfold run
  cases hparse : parse args with
  | error stop =>
    cases stop with
    | misuse => exact .failed []
    | help topic => exact .shown (helpText topic) [] (by rintro i hi; rw [hparse] at hi; cases hi)
    | version => exact .shown versionText [] (by rintro i hi; rw [hparse] at hi; cases hi)
  | ok i => exact ends_invocation hparse

/-! ## A command line without its output -/

/-- Options and operands whose paths are not empty. -/
def Found.Accepted (f : Found) : Prop :=
  (∀ p ∈ f.options, p.1.takes = .path → p.2 ≠ []) ∧ ∀ operand ∈ f.operands, operand ≠ []

section

variable {f g : Found} {o : OptionName} {value : Text}

theorem Found.addOption_accepted (hf : f.Accepted) (hvalue : o.takes = .path → value ≠ [])
    (h : f.addOption o value = .ok g) : g.Accepted := by
  unfold addOption at h
  split at h
  · cases h
  · cases h
    refine ⟨?_, hf.2⟩
    intro p hp
    rcases List.mem_append.1 hp with hp | hp
    · exact hf.1 p hp
    · rw [List.mem_singleton.1 hp]
      exact hvalue

theorem Found.addValue_accepted (hf : f.Accepted) (h : f.addValue o value = .ok g) : g.Accepted := by
  unfold addValue at h
  split at h
  · rename_i haccepts
    refine Found.addOption_accepted hf ?_ h
    intro hpath
    rw [hpath] at haccepts
    simpa [Takes.accepts] using haccepts
  · cases h

theorem Found.addOperands_accepted {limit : Nat} {more : List Text} (hf : f.Accepted)
    (h : f.addOperands limit more = .ok g) : g.Accepted := by
  unfold addOperands at h
  simp only at h
  split at h
  · rename_i haccepts
    cases h
    simp only [Bool.and_eq_true, List.all_eq_true] at haccepts
    refine ⟨hf.1, ?_⟩
    intro operand hmem
    rcases List.mem_append.1 hmem with hmem | hmem
    · exact hf.2 operand hmem
    · simpa [Takes.accepts] using haccepts.2 operand hmem
  · cases h

end

theorem readArguments_accepted {topic : Option Text} {allowed : List OptionName}
    {operands : Option Nat} {f g : Found} {args rest : List Text} (hf : f.Accepted)
    (h : readArguments topic allowed operands f args = .ok (g, rest)) : g.Accepted := by
  fun_induction readArguments topic allowed operands f args generalizing g rest with
  | case1 | case13 =>
    cases h
    exact hf
  | case2 | case4 | case5 | case6 | case7 | case10 | case11 => cases h
  | case3 f _ more _ limit _ =>
    cases hmore : f.addOperands limit more with
    | error stop => rw [hmore] at h; cases h
    | ok f' =>
      rw [hmore] at h
      cases h
      exact Found.addOperands_accepted hf hmore
  | case8 f _ _ _ _ o htakes _ _ _ ih =>
    obtain ⟨f', hf', h⟩ := bind_eq_ok h
    exact ih f' (Found.addOption_accepted hf (by simp [htakes]) hf') h
  | case9 _ _ _ _ _ _ _ _ _ _ _ ih =>
    obtain ⟨f', hf', h⟩ := bind_eq_ok h
    exact ih f' (Found.addValue_accepted hf hf') h
  | case12 _ _ _ _ _ _ _ _ _ _ _ _ ih =>
    obtain ⟨f', hf', h⟩ := bind_eq_ok h
    exact ih f' (Found.addValue_accepted hf hf') h
  | case14 _ _ _ _ _ limit hlimit ih =>
    obtain ⟨f', hf', h⟩ := bind_eq_ok h
    exact ih f' (Found.addOperands_accepted hf hf') (hlimit ▸ h)

theorem Found.accepted_nil : Found.Accepted {} := ⟨by simp, by simp⟩

theorem Found.Accepted.value? {f : Found} (hf : f.Accepted) {o : OptionName} (ho : o.takes = .path)
    {value : Text} (h : f.value? o = some value) : value ≠ [] := by
  obtain ⟨p, hp, rfl⟩ := Option.map_eq_some_iff.1 h
  have hname : p.1 = o := by simpa using List.find?_some hp
  exact hf.1 p (List.mem_of_find?_eq_some hp) (hname ▸ ho)

/-- Only the form for it makes a command that surveys a repository. -/
theorem build_generate {word : Text} {form : CommandForm} (hform : form? word = some form) {f : Found}
    {operand path format : Text} {output : Option Text} (hoperand : form.operand f = some operand)
    (h : form.build operand f = .generate path format output) : path = f.operands.headD "." := by
  have hmem := List.mem_of_find?_eq_some hform
  simp only [commandForms, List.mem_cons, List.not_mem_nil, or_false] at hmem
  rcases hmem with rfl | rfl | rfl | rfl | rfl | rfl
  case inr.inr.inr.inr.inl =>
    injection h with hpath
    have hdefault : f.operands.head?.or (some ".") = some operand := hoperand
    rw [Option.or_some, Option.some_inj] at hdefault
    rw [← hpath, ← hdefault, List.headD_eq_head?_getD]
  all_goals cases h

/-- The paths of a survey are not empty. -/
theorem parse_generate {args : List Text} {config output : Option Text} {path format : Text}
    (h : parse args = .ok ⟨config, .generate path format output⟩) :
    path ≠ [] ∧ ∀ file, config = some file → file ≠ [] := by
  obtain ⟨⟨top, rest⟩, htop, h⟩ := bind_eq_ok h
  have hacceptedTop := readArguments_accepted Found.accepted_nil htop
  simp only at h
  split at h
  · cases h
  split at h
  · cases h
  rename_i form hform
  obtain ⟨⟨f, _⟩, hf, h⟩ := bind_eq_ok h
  have haccepted := readArguments_accepted Found.accepted_nil hf
  simp only at h
  split at h
  · cases h
  -- an operand that was found is not empty, and neither is the default
  rename_i operand hoperand
  injection h with h
  injection h with hconfig hbuild
  constructor
  · rw [build_generate hform hoperand hbuild]
    cases hoperands : f.operands with
    | nil => simp
    | cons operand operands => exact haccepted.2 operand (by simp [hoperands])
  · intro file hfile
    rcases Option.or_eq_some_iff.1 (hconfig.trans hfile) with hfile | ⟨-, hfile⟩
    · exact haccepted.value? rfl hfile
    · exact hacceptedTop.value? rfl hfile

/-- The arguments for a survey that is shown. -/
def surveyArguments (config : Option Text) (path format : Text) : List Text :=
  (config.toList.map fun file => "--config=".toList ++ file) ++
    ["generate".toList, "--format=".toList ++ format, "--".toList, path]

theorem parse_surveyArguments {config : Option Text} {path format : Text} (hpath : path ≠ [])
    (hconfig : ∀ file, config = some file → file ≠ []) :
    parse (surveyArguments config path format) = .ok ⟨config, .generate path format none⟩ := by
  cases path with
  | nil => exact absurd rfl hpath
  | cons c path =>
    cases config with
    | none => rfl
    | some file =>
      cases file with
      | nil => exact absurd rfl (hconfig [] rfl)
      | cons d file => rfl

/-! ## What holds of every run -/

/-- What a run of a command line leaves behind is all that it was asked for, or nothing. -/
structure AllOrNothing (fs : FileSystem) (stdin : List UInt8) (args : List Text) (o : Outcome) :
    Prop where
  code : o.exitCode ≤ 2
  /-- A run that fails shows nothing and changes nothing. -/
  failure : o.exitCode = 2 → o.stdout = [] ∧ o.files = fs
  /-- So does a run that ends with 1; it was to write a settings file where there is one. -/
  refusal : o.exitCode = 1 → o.stdout = [] ∧ o.files = fs ∧ fs.pathExists settingsFile = true ∧
    ∃ config, parse args = .ok ⟨config, .init false⟩
  /-- Only the commands that have a file to write change anything. -/
  unwritten : (∀ i, parse args = .ok i → i.command.writes? = none) → o.files = fs
  /-- A survey in a file is what the command shows without that file. -/
  survey : ∀ config path format out, parse args = .ok ⟨config, .generate path format (some out)⟩ →
    o.exitCode = 0 → o.stdout = [] ∧
    ∃ bare names, parse bare = .ok ⟨config, .generate path format none⟩ ∧
      (run fs stdin bare).exitCode = 0 ∧
      fs.locate .write out = .ok names ∧ o.files.locate .reach out = .ok names ∧
      fs.WithFile names (Utf8.encode (run fs stdin bare).stdout) o.files
  /-- A new settings file holds the defaults. -/
  init : ∀ config force, parse args = .ok ⟨config, .init force⟩ → o.exitCode = 0 →
    (∃ names bytes, fs.locate .write settingsFile = .ok names ∧
      o.files.locate .reach settingsFile = .ok names ∧ fs.WithFile names bytes o.files) ∧
    o.files.loadSettings settingsFile = .ok {}

theorem parse_starter : Settings.parse Settings.starter = .ok {} := by decide +kernel

/-- The settings in a file that has been written. -/
theorem loadSettings_of_withFile {fs after : FileSystem} {path text : Text} {names : List Text}
    (hreach : after.locate .reach path = .ok names)
    (h : fs.WithFile names (Utf8.encode text) after) :
    after.loadSettings path = Settings.parse text := by
  have hexists : after.pathExists path = true := by
    unfold FileSystem.pathExists
    rw [hreach]
    rfl
  unfold FileSystem.loadSettings
  simp only [hexists, FileSystem.read_of_locate hreach h, FileSystem.liftFault, bind, Except.bind,
    Utf8.decode_eq_ok_iff.2 rfl]
  rfl

theorem Ends.allOrNothing {fs : FileSystem} {stdin : List UInt8} {args : List Text} {o : Outcome}
    (h : Ends fs stdin args o) : AllOrNothing fs stdin args o where
  code := by
    cases h with
    | failed => exact Nat.le_refl 2
    | refused => exact Nat.le_succ 1
    | _ => exact Nat.zero_le 2
  failure := by
    intro hcode
    cases h with
    | failed => exact ⟨rfl, rfl⟩
    | _ => cases hcode
  refusal := by
    intro hcode
    cases h with
    | refused stderr hparse hexists => exact ⟨rfl, rfl, hexists, _, hparse⟩
    | _ => cases hcode
  unwritten := by
    intro hwrites
    cases h with
    | surveyed hparse => cases hwrites _ hparse
    | initialized stdout stderr hparse => cases hwrites _ hparse
    | _ => rfl
  survey := by
    intro config path format out hparse hcode
    cases h with
    | failed | refused => cases hcode
    | shown stdout stderr hshown => cases hshown _ hparse
    | initialized stdout stderr hinit => cases hparse.symm.trans hinit
    | surveyed hsurvey hshown hwrite =>
      cases hparse.symm.trans hsurvey
      obtain ⟨names, hlocate, hreach, hwith⟩ := FileSystem.write_eq_ok hwrite
      -- the same command line without its output, spelled out
      obtain ⟨hpath, hconfig⟩ := parse_generate hparse
      have hbare : parse (surveyArguments config path format) =
          .ok ⟨config, .generate path format none⟩ := parse_surveyArguments hpath hconfig
      have hrun : run fs stdin (surveyArguments config path format) =
          finish (runInvocation stdin ⟨config, .generate path format none⟩ { files := fs }) := by
        unfold run
        rw [hbare]
      rw [hshown] at hrun
      refine ⟨rfl, _, names, hbare, ?_, hlocate, hreach, ?_⟩
      · rw [hrun]
        rfl
      · rw [hrun]
        exact hwith
  init := by
    intro config force hparse hcode
    cases h with
    | failed | refused => cases hcode
    | shown stdout stderr hshown => cases hshown _ hparse
    | surveyed hsurvey => cases hparse.symm.trans hsurvey
    | initialized stdout stderr _ hwrite =>
      obtain ⟨names, hlocate, hreach, hwith⟩ := FileSystem.write_eq_ok hwrite
      exact ⟨⟨names, _, hlocate, hreach, hwith⟩,
        (loadSettings_of_withFile hreach hwith).trans parse_starter⟩

/-- **Every run does all or nothing.** -/
theorem run_allOrNothing (fs : FileSystem) (stdin : List UInt8) (args : List Text) :
    AllOrNothing fs stdin args (run fs stdin args) := (ends_run fs stdin args).allOrNothing

/-- A working directory with one source. -/
def oneSource : FileSystem := ⟨.directory [("a.py", .file (Utf8.encode "def f(x):\n    pass\n"))], []⟩

/-- A survey that goes to a file, and a settings file that is made. -/
theorem run_allOrNothing_oneSource :
    (let o := run oneSource [] ["generate", "-o", "OUT"]
     o.exitCode = 0 ∧ o.stdout = [] ∧
      o.files.read "OUT" = .ok (Utf8.encode (run oneSource [] ["generate"]).stdout) ∧
      ∃ bare names, parse bare = .ok ⟨none, .generate "." "json" none⟩ ∧
        (run oneSource [] bare).exitCode = 0 ∧
        oneSource.WithFile names (Utf8.encode (run oneSource [] bare).stdout) o.files) ∧
    (let o := run oneSource [] ["init"]
     o.exitCode = 0 ∧ o.stdout = line "Created .repoprime.toml" ∧
      o.files.loadSettings settingsFile = .ok {}) := by
  have hgenerate : (run oneSource [] ["generate", "-o", "OUT"]).exitCode = 0 := by decide +kernel
  have hinit : (run oneSource [] ["init"]).exitCode = 0 := by decide +kernel
  obtain ⟨hstdout, bare, names, hbare, hcode, -, -, hwith⟩ :=
    (run_allOrNothing oneSource [] ["generate", "-o", "OUT"]).survey none "." "json" "OUT" rfl hgenerate
  obtain ⟨-, hsettings⟩ := (run_allOrNothing oneSource [] ["init"]).init none false rfl hinit
  exact ⟨⟨hgenerate, hstdout, by decide +kernel, bare, names, hbare, hcode, hwith⟩,
    hinit, by decide +kernel, hsettings⟩

end ToolCatalog.CommandLine
