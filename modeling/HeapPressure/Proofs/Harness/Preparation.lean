import HeapPressure.Harness.Orchestrate
import HeapPressure.Proofs.Settings.Layers

/-!
What the harness settles before it looks for the fixture: each setting has the first value that is
present among its option, its variable, the settings file and the default, and only faults of the
file or bounds that the merged values break stand in the way.
-/
namespace HeapPressure.Harness

open CommandLine (Arguments Environment Spells allOptions given? count? path?)
open Settings (Layer FirstOf)

/-- The file can be read and holds this document. -/
def Holds (host : Host) (path : String) (t : Toml.Table) : Prop :=
  ∃ bytes cs, host.readFile path = .ok bytes ∧ Text.Utf8.strict? bytes = some cs ∧
    Toml.read (String.ofList cs) = some t

/-- What the settings file says: nothing where there is no file, else what stands in its entries,
all of which are known; what it says is valid by itself. -/
inductive FileSays (host : Host) : Option String → Layer → Prop where
  | none : FileSays host none {}
  | file {path : String} {t : Toml.Table} {l : Layer} (ht : Holds host path t)
      (hsaid : l.SaidIn t.entries) (htimeout : l.timeoutSecs ≠ some 0)
      (hlimit : ∀ mb, l.memoryLimitMb = some mb → mb.toNat < 0x100000000000) :
      FileSays host (some path) l

/-- All that can be wrong with a settings file. -/
inductive FileFault (host : Host) (path : String) : Prop where
  | unreadable {e : SystemError} (h : host.readFile path = .error e)
  | notText {bytes : List UInt8} (hfile : host.readFile path = .ok bytes)
      (h : Text.Utf8.strict? bytes = none)
  | notToml {bytes : List UInt8} {cs : List Char} (hfile : host.readFile path = .ok bytes)
      (htext : Text.Utf8.strict? bytes = some cs) (h : Toml.read (String.ofList cs) = none)
  | unacceptable {t : Toml.Table} (ht : Holds host path t) (h : ∀ l : Layer, ¬l.SaidIn t.entries)
  | zeroTimeout {t : Toml.Table} {l : Layer} (ht : Holds host path t) (hsaid : l.SaidIn t.entries)
      (h : l.timeoutSecs = some 0)
  | limitTooLarge {t : Toml.Table} {l : Layer} {mb : UInt64} (ht : Holds host path t)
      (hsaid : l.SaidIn t.entries) (h : l.memoryLimitMb = some mb)
      (hle : 0x100000000000 ≤ mb.toNat)

variable {host : Host} {path : String} {l : Layer} {s : Settings}

/-- The defaults are valid, so a layer is valid when what it says is. -/
theorem valid_settings_iff : l.settings.Valid ↔ l.timeoutSecs ≠ some 0 ∧
    ∀ mb, l.memoryLimitMb = some mb → mb.toNat < 0x100000000000 := by
  obtain ⟨mb, secs, path, level, format⟩ := l
  constructor
  · rintro ⟨ht, hm⟩
    refine ⟨?_, ?_⟩
    · rintro rfl
      exact ht rfl
    · rintro mb rfl
      exact hm
  · rintro ⟨ht, hm⟩
    refine ⟨fun h => ?_, ?_⟩
    · cases secs with
      | none => cases h
      | some secs => exact ht (congrArg some h)
    · cases mb with
      | none => exact (by decide : (256 : UInt64).toNat < 0x100000000000)
      | some mb => exact hm mb rfl

theorem Holds.unique {t u : Toml.Table} (ht : Holds host path t) (hu : Holds host path u) :
    t = u := by
  obtain ⟨bytes, cs, hfile, htext, hread⟩ := ht
  obtain ⟨bytes', cs', hfile', htext', hread'⟩ := hu
  cases hfile.symm.trans hfile'
  cases htext.symm.trans htext'
  exact Option.some.inj (hread.symm.trans hread')

theorem Holds.sound {t : Toml.Table} (h : Holds host path t) : t.Sound := by
  obtain ⟨_, _, -, -, hread⟩ := h
  exact Toml.read_sound hread

theorem loadSettings_eq_ok_iff : loadSettings host path = .ok s ↔
    ∃ l, FileSays host (some path) l ∧ s = l.settings := by
  constructor
  · intro h
    unfold loadSettings at h
    cases hfile : host.readFile path with
    | error e => simp [hfile, bind, Except.bind] at h
    | ok bytes =>
      cases htext : Text.Utf8.strict? bytes with
      | none => simp [hfile, htext, bind, Except.bind] at h
      | some cs =>
        simp only [hfile, htext, bind, Except.bind, mapError_eq_ok_iff] at h
        obtain ⟨t, hread, ht, hvalid⟩ := Settings.ofToml_eq_ok_iff.mp h
        have hholds : Holds host path t := ⟨bytes, cs, hfile, htext, hread⟩
        obtain ⟨l, hsaid, rfl⟩ := (Settings.ofTable_eq_ok_iff_saidIn hholds.sound).mp ht
        obtain ⟨htimeout, hlimit⟩ := valid_settings_iff.mp hvalid
        exact ⟨l, .file hholds hsaid htimeout hlimit, rfl⟩
  · rintro ⟨l, h, rfl⟩
    cases h with
    | file hholds hsaid htimeout hlimit =>
      have ht := (Settings.ofTable_eq_ok_iff_saidIn hholds.sound).mpr ⟨l, hsaid, rfl⟩
      have hvalid := valid_settings_iff.mpr ⟨htimeout, hlimit⟩
      obtain ⟨bytes, cs, hfile, htext, hread⟩ := hholds
      simp only [loadSettings, hfile, htext, bind, Except.bind, mapError_eq_ok_iff]
      exact Settings.ofToml_eq_ok_iff.mpr ⟨_, hread, ht, hvalid⟩

/-- What two layers say in the same entries comes to the same settings. -/
theorem settings_eq_of_saidIn {t : Toml.Table} {l l' : Layer} (ht : t.Sound)
    (h : l.SaidIn t.entries) (h' : l'.SaidIn t.entries) : l.settings = l'.settings := by
  have hl := (Settings.ofTable_eq_ok_iff_saidIn ht).mpr ⟨l, h, rfl⟩
  have hl' := (Settings.ofTable_eq_ok_iff_saidIn ht).mpr ⟨l', h', rfl⟩
  exact Except.ok.inj (hl.symm.trans hl')

theorem FileSays.settings_eq {config : Option String} {l l' : Layer}
    (h : FileSays host config l) (h' : FileSays host config l') : l.settings = l'.settings := by
  cases h with
  | none =>
    cases h'
    rfl
  | file ht hsaid =>
    cases h' with
    | file hu hsaid' =>
      cases ht.unique hu
      exact settings_eq_of_saidIn ht.sound hsaid hsaid'

/-- Layers in the same entries are valid together. -/
theorem FileSays.valid {t : Toml.Table} {l l' : Layer} (h : FileSays host (some path) l)
    (ht : Holds host path t) (hsaid : l'.SaidIn t.entries) : l'.settings.Valid := by
  cases h with
  | file hu hsaid' htimeout hlimit =>
    cases ht.unique hu
    rw [settings_eq_of_saidIn ht.sound hsaid hsaid']
    exact valid_settings_iff.mpr ⟨htimeout, hlimit⟩

/-- A file at fault says nothing. -/
theorem FileFault.refuses (hfault : FileFault host path) : ¬FileSays host (some path) l := by
  intro hl
  obtain ⟨t, hholds, hsaid⟩ : ∃ t, Holds host path t ∧ l.SaidIn t.entries := by
    cases hl with
    | file hholds hsaid => exact ⟨_, hholds, hsaid⟩
  have ⟨bytes, cs, hfile, htext, hread⟩ := hholds
  cases hfault with
  | unreadable h => simp [hfile] at h
  | notText hfile' h =>
    cases hfile.symm.trans hfile'
    simp [htext] at h
  | notToml hfile' htext' h =>
    cases hfile.symm.trans hfile'
    cases htext.symm.trans htext'
    simp [hread] at h
  | unacceptable ht h =>
    cases hholds.unique ht
    exact h l hsaid
  | zeroTimeout ht hsaid' h => exact (valid_settings_iff.mp (hl.valid ht hsaid')).1 h
  | limitTooLarge ht hsaid' h hle =>
    exact Nat.not_lt_of_le hle ((valid_settings_iff.mp (hl.valid ht hsaid')).2 _ h)

theorem fileFault_of_said {t : Toml.Table} (ht : Holds host path t) (hsaid : l.SaidIn t.entries)
    (hnone : ¬FileSays host (some path) l) : FileFault host path := by
  by_cases htimeout : l.timeoutSecs = some 0
  · exact .zeroTimeout ht hsaid htimeout
  · by_contra hfault
    refine hnone (.file ht hsaid htimeout fun mb hmb => ?_)
    by_contra hle
    exact hfault (.limitTooLarge ht hsaid hmb (Nat.le_of_not_lt hle))

/-- No other file is refused. -/
theorem fileFault_of_forall (hnone : ∀ l, ¬FileSays host (some path) l) : FileFault host path := by
  cases hfile : host.readFile path with
  | error e => exact .unreadable hfile
  | ok bytes =>
    cases htext : Text.Utf8.strict? bytes with
    | none => exact .notText hfile htext
    | some cs =>
      cases hread : Toml.read (String.ofList cs) with
      | none => exact .notToml hfile htext hread
      | some t =>
        have hholds : Holds host path t := ⟨bytes, cs, hfile, htext, hread⟩
        by_cases hsome : ∃ l : Layer, l.SaidIn t.entries
        · obtain ⟨l, hsaid⟩ := hsome
          exact fileFault_of_said hholds hsaid (hnone l)
        · exact .unacceptable hholds fun l hl => hsome ⟨l, hl⟩

theorem inContext_eq_ok_iff {α : Type} {context : String} {x : Except Error α} {b : α} :
    inContext context x = .ok b ↔ x = .ok b := by
  cases x <;> simp [inContext]

/-- What the overrides are laid over: the settings of the file, or the defaults. -/
def loaded (host : Host) : Option String → Except Failure Settings
  | some path => inContext ("loading config " ++ path) (loadSettings host path)
  | none => .ok {}

theorem loaded_eq_ok_iff {config : Option String} :
    loaded host config = .ok s ↔ ∃ l, FileSays host config l ∧ s = l.settings := by
  cases config with
  | some path => exact inContext_eq_ok_iff.trans loadSettings_eq_ok_iff
  | none =>
    constructor
    · rintro ⟨⟩
      exact ⟨{}, .none, rfl⟩
    · rintro ⟨l, hl, rfl⟩
      cases hl
      rfl

theorem prepare_eq (host : Host) (a : Arguments) :
    prepare host a = loaded host a.config >>= fun file =>
      inContext "resolving configuration"
          ((file.apply a.overrides).mapError Error.invalidConfig) >>= fun merged =>
        .ok ⟨merged, (a.logging.level.or file.logging.level).getD .info,
          (a.logging.format.or file.logging.format).getD .plaintext⟩ := by
  obtain ⟨config, _, _, _⟩ := a
  cases config <;> rfl

theorem prepare_eq_ok_iff {a : Arguments} {p : Prepared} : prepare host a = .ok p ↔
    ∃ l, FileSays host a.config l ∧ (l.settings.override a.overrides).Valid ∧
      p = ⟨l.settings.override a.overrides, (a.logging.level.or l.level).getD .info,
        (a.logging.format.or l.format).getD .plaintext⟩ := by
  simp only [prepare_eq, bind_eq_ok_iff, loaded_eq_ok_iff, inContext_eq_ok_iff,
    mapError_eq_ok_iff, Settings.apply_eq_ok_iff, Except.ok.injEq]
  constructor
  · rintro ⟨_, ⟨l, hl, rfl⟩, _, ⟨rfl, hvalid⟩, rfl⟩
    exact ⟨l, hl, hvalid, rfl⟩
  · rintro ⟨l, hl, hvalid, rfl⟩
    exact ⟨_, ⟨l, hl, rfl⟩, _, ⟨rfl, hvalid⟩, rfl⟩

theorem prepare_eq_error_iff {a : Arguments} : (∃ f, prepare host a = .error f) ↔
    (∃ path, a.config = some path ∧ FileFault host path) ∨
      ∃ l, FileSays host a.config l ∧ ¬(l.settings.override a.overrides).Valid := by
  rw [exists_error_iff]
  constructor
  · intro hnone
    by_cases hsome : ∃ l, FileSays host a.config l
    · obtain ⟨l, hl⟩ := hsome
      exact .inr ⟨l, hl, fun hvalid => hnone _ (prepare_eq_ok_iff.mpr ⟨l, hl, hvalid, rfl⟩)⟩
    · cases hconfig : a.config with
      | none =>
        rw [hconfig] at hsome
        exact absurd ⟨{}, .none⟩ hsome
      | some path =>
        exact .inl ⟨path, rfl, fileFault_of_forall fun l hl => hsome ⟨l, hconfig ▸ hl⟩⟩
  · rintro (⟨path, hconfig, hfault⟩ | ⟨l, hl, hinvalid⟩) p hp
    · obtain ⟨l, hl, -⟩ := prepare_eq_ok_iff.mp hp
      exact hfault.refuses (hconfig ▸ hl)
    · obtain ⟨l', hl', hvalid, -⟩ := prepare_eq_ok_iff.mp hp
      rw [hl'.settings_eq hl] at hvalid
      exact hinvalid hvalid

/-- The limit, the timeout and the path of the fixture, each from its first layer. The path by
default stands where the program is, which need not be known. -/
structure Merged (host : Host) (given : List (String × String)) (env : Environment) (l : Layer)
    (mb secs : UInt64) (path : Except SystemError String) : Prop where
  memoryLimitMb : FirstOf count? (given? given "memory-limit-mb") (env "OOM_MEMORY_LIMIT_MB")
    l.memoryLimitMb 256 mb
  timeoutSecs : FirstOf count? (given? given "timeout-secs") (env "OOM_TIMEOUT_SECS")
    l.timeoutSecs 15 secs
  fixture : FirstOf (fun s => (path? s).map .ok) (given? given "fixture") (env "OOM_FIXTURE")
    (l.fixture.map .ok) host.besideProgram path

/-- The log level and format, each from its first layer; no variables stand for them. -/
structure Logged (given : List (String × String)) (l : Layer) (level : Log.Level)
    (format : Log.Format) : Prop where
  level : FirstOf Log.Level.ofName? (given? given "log-level") none l.level .info level
  format : FirstOf Log.Format.ofName? (given? given "log-format") none l.format .plaintext format

variable {given : List (String × String)} {env : Environment} {a : Arguments}

/-- The merged settings are the overrides on what the file says. -/
theorem merged_iff (h : a.ReadFrom given env) {mb secs : UInt64}
    {path : Except SystemError String} :
    Merged host given env l mb secs path ↔
      let s := l.settings.override a.overrides
      mb = s.memoryLimitMb ∧ secs = s.timeoutSecs ∧
        path = (s.fixture.map .ok).getD host.besideProgram := by
  have hmb : FirstOf count? _ _ l.memoryLimitMb 256 mb ↔ _ :=
    Settings.firstOf_iff h.memoryLimitMb
  have hsecs : FirstOf count? _ _ l.timeoutSecs 15 secs ↔ _ := Settings.firstOf_iff h.timeoutSecs
  rw [Option.getD_or] at hmb hsecs
  have hpath : FirstOf _ _ _ (l.fixture.map .ok) host.besideProgram path ↔ _ :=
    Settings.firstOf_iff (h.fixture.map .ok)
  rw [← Option.map_or] at hpath
  constructor
  · rintro ⟨h₁, h₂, h₃⟩
    exact ⟨hmb.mp h₁, hsecs.mp h₂, hpath.mp h₃⟩
  · rintro ⟨h₁, h₂, h₃⟩
    exact ⟨hmb.mpr h₁, hsecs.mpr h₂, hpath.mpr h₃⟩

theorem logged_iff (h : a.ReadFrom given env) {level : Log.Level} {format : Log.Format} :
    Logged given l level format ↔ level = (a.logging.level.or l.level).getD .info ∧
      format = (a.logging.format.or l.format).getD .plaintext := by
  constructor
  · rintro ⟨hlevel, hformat⟩
    exact ⟨(Settings.firstOf_iff h.level).mp hlevel, (Settings.firstOf_iff h.format).mp hformat⟩
  · rintro ⟨hlevel, hformat⟩
    exact ⟨(Settings.firstOf_iff h.level).mpr hlevel, (Settings.firstOf_iff h.format).mpr hformat⟩

/-- Each setting is the first value present among its option, its variable, the settings file and
the default, whatever the others are. What stops the harness before it looks for the fixture is a
fault of the file by itself, also where an option stands in front of the value at fault, or a
merged timeout of zero, or a merged limit of 2^44 mebibytes or more. -/
theorem settings_from_first_layers (host : Host) (args : List String) (env : Environment)
    (a : Arguments) (h : CommandLine.parse args env = .ok a) :
    ∃ given, Spells allOptions given args ∧ (given.map Prod.fst).Nodup ∧
      (∀ p, prepare host a = .ok p → ∃ l path, FileSays host (given? given "config") l ∧
        Merged host given env l p.settings.memoryLimitMb p.settings.timeoutSecs path ∧
        Logged given l p.level p.format ∧
        fixturePath host p.settings =
          match path with
          | .error e => .error (.system e)
          | .ok path =>
            if host.pathExists path then .ok path else .error (.fixtureNotFound path)) ∧
      ((∃ f, prepare host a = .error f) ↔
        (∃ path, given? given "config" = some path ∧ FileFault host path) ∨
          ∃ l mb secs path, FileSays host (given? given "config") l ∧
            Merged host given env l mb secs path ∧ (secs = 0 ∨ 0x100000000000 ≤ mb.toNat)) := by
  obtain ⟨given, hspells, hn, hread⟩ := CommandLine.parse_eq_ok_iff.mp h
  refine ⟨given, hspells, hn, fun p hp => ?_, ?_⟩
  · obtain ⟨l, hl, -, rfl⟩ := prepare_eq_ok_iff.mp hp
    exact ⟨l, _, hread.config ▸ hl, (merged_iff hread).mpr ⟨rfl, rfl, rfl⟩,
      (logged_iff hread).mpr ⟨rfl, rfl⟩, fixturePath_eq host _⟩
  · rw [prepare_eq_error_iff, ← hread.config]
    refine or_congr_right (exists_congr fun l => ?_)
    constructor
    · rintro ⟨hl, hinvalid⟩
      refine ⟨_, _, _, hl, (merged_iff hread).mpr ⟨rfl, rfl, rfl⟩, ?_⟩
      by_contra hbounds
      rw [not_or, Nat.not_le] at hbounds
      exact hinvalid ⟨hbounds.1, hbounds.2⟩
    · rintro ⟨mb, secs, path, hl, hmerged, hbounds⟩
      obtain ⟨rfl, rfl, -⟩ := (merged_iff hread).mp hmerged
      refine ⟨hl, fun hvalid => ?_⟩
      obtain htimeout | hlimit := hbounds
      · exact hvalid.timeoutSecs_ne_zero htimeout
      · exact Nat.not_lt_of_le hlimit hvalid.memoryLimitMb_lt

/-- A limit from a variable in front of the one in the file, a timeout from an option in front of
both, and a level and a format from different layers. -/
theorem settings_from_first_layers_mixed :
    let text := "memory-limit-mb = 512\ntimeout-secs = 7\nfixture = \"f\"\n" ++
      "[logging]\nlog-format = \"json\"\n"
    let host : Host := {
      readFile := fun path =>
        if path = "c.toml" then .ok (text.toList.map fun c => c.toNat.toUInt8)
        else .error .notFound
      pathExists := fun _ => true
      programDirectory := .ok "/bin"
      start := fun _ => .error .notFound }
    let env : Environment := fun name =>
      if name = "OOM_MEMORY_LIMIT_MB" then some "64"
      else if name = "OOM_TIMEOUT_SECS" then some "9" else none
    let args := ["--timeout-secs=3", "--config", "c.toml", "--log-level", "warn"]
    let a : Arguments := {
      config := some "c.toml"
      overrides := ⟨some 64, some 3, none⟩
      logging := ⟨some .warn, none⟩ }
    let p : Prepared := ⟨⟨64, 3, some "f", ⟨none, some .json⟩⟩, .warn, .json⟩
    CommandLine.parse args env = .ok a ∧ prepare host a = .ok p ∧
      ∃ given l path, Spells allOptions given args ∧ FileSays host (given? given "config") l ∧
        Merged host given env l 64 3 path ∧ Logged given l .warn .json := by
  intro text host env args a p
  have hparse : CommandLine.parse args env = .ok a := by rfl
  have hprepare : prepare host a = .ok p := Toml.toOption_eq_some_iff.mp (by decide +kernel)
  obtain ⟨given, hspells, -, hfirst, -⟩ := settings_from_first_layers host args env a hparse
  obtain ⟨l, path, hl, hmerged, hlogged, -⟩ := hfirst p hprepare
  exact ⟨hparse, hprepare, given, l, path, hspells, hl, hmerged, hlogged⟩

end HeapPressure.Harness
