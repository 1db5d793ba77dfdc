import HeapPressure.CommandLine.Basic
import HeapPressure.Proofs.CommandLine.Options

/-!
The harness's command line and its environment: an option stands before the variable of the same
setting, and both hold values that can be read.
-/
namespace HeapPressure.CommandLine

/-- All options of the harness. -/
def allOptions : List OptionSpec := helpOption :: harnessOptions ++ logOptions

theorem distinct_allOptions : Distinct allOptions where
  nodup := by decide
  named := by decide

/-- The value of an option or else of a variable, as it is read. -/
inductive Chosen {α : Type} (reads : String → Option α) (flag var : Option String) :
    Option α → Prop where
  | flag {s : String} {a : α} (hf : flag = some s) (h : reads s = some a) :
      Chosen reads flag var (some a)
  | var {s : String} {a : α} (hf : flag = none) (hv : var = some s) (h : reads s = some a) :
      Chosen reads flag var (some a)
  | neither (hf : flag = none) (hv : var = none) : Chosen reads flag var none

/-- A path is never empty. -/
def path? (s : String) : Option String := if s.isEmpty then none else some s

/-- What options and variables make of the arguments. -/
structure Arguments.ReadFrom (a : Arguments) (given : List (String × String))
    (env : Environment) : Prop where
  config : a.config = given? given "config"
  json : a.json = (given? given "json").isSome
  memoryLimitMb : Chosen count? (given? given "memory-limit-mb") (env "OOM_MEMORY_LIMIT_MB")
    a.overrides.memoryLimitMb
  timeoutSecs : Chosen count? (given? given "timeout-secs") (env "OOM_TIMEOUT_SECS")
    a.overrides.timeoutSecs
  fixture : Chosen path? (given? given "fixture") (env "OOM_FIXTURE") a.overrides.fixture
  level : Chosen Log.Level.ofName? (given? given "log-level") none a.logging.level
  format : Chosen Log.Format.ofName? (given? given "log-format") none a.logging.format

variable {options : List OptionSpec} {given : List (String × String)} {args : List String}
  {name value : String} {accepts : String → Bool} {env : Environment}

/-- A value that is given was accepted. -/
theorem Spells.accepts_value (hd : Distinct options) (h : Spells options given args)
    (ho : ⟨name, .value accepts⟩ ∈ options) (hv : (name, value) ∈ given) :
    accepts value = true := by
  have hunique {o : OptionSpec} (ho' : o ∈ options) (hname : o.name = name) :
      o = ⟨name, .value accepts⟩ := List.inj_on_of_nodup_map hd.nodup ho' ho hname
  induction h with
  | nil | stop => cases hv
  | flag ho' _ ih =>
    rcases List.mem_cons.mp hv with heq | hv
    · cases heq
      cases hunique ho' rfl
    · exact ih hv
  | attached ho' haccepts _ ih | separate ho' haccepts _ _ ih =>
    rcases List.mem_cons.mp hv with heq | hv
    · cases heq
      cases hunique ho' rfl
      exact haccepts
    · exact ih hv

theorem mem_of_given? (h : given? given name = some value) : (name, value) ∈ given := by
  obtain ⟨⟨n, v⟩, hfind, rfl⟩ := Option.map_eq_some_iff.mp h
  have hname := List.find?_some hfind
  obtain rfl : n = name := beq_iff_eq.mp hname
  exact List.mem_of_find?_eq_some hfind

theorem Chosen.map {α β : Type} {reads : String → Option α} {flag var : Option String}
    {o : Option α} (ho : Chosen reads flag var o) (f : α → β) :
    Chosen (fun s => (reads s).map f) flag var (o.map f) := by
  cases ho with
  | flag hf h => exact .flag hf (congrArg (Option.map f) h)
  | var hf hv h => exact .var hf hv (congrArg (Option.map f) h)
  | neither hf hv => exact .neither hf hv

theorem chosen_iff {α : Type} {reads : String → Option α} {flag var : Option String}
    {x : Option α} : Chosen reads flag var x ↔
      (∀ s, flag.or var = some s → (reads s).isSome = true) ∧ x = (flag.or var).bind reads := by
  constructor
  · intro h
    cases h with
    | flag hf h => simp [hf, h]
    | var hf hv h => simp [hf, hv, h]
    | neither hf hv => simp [hf, hv]
  · rintro ⟨hreads, rfl⟩
    cases hf : flag with
    | some s =>
      obtain ⟨a, ha⟩ := Option.isSome_iff_exists.mp (hreads s (by rw [hf, Option.some_or]))
      rw [Option.some_or, Option.bind_some, ha]
      exact .flag rfl ha
    | none =>
      rw [Option.none_or]
      cases hv : var with
      | some s =>
        obtain ⟨a, ha⟩ :=
          Option.isSome_iff_exists.mp (hreads s (by rw [hf, Option.none_or, hv]))
        rw [Option.bind_some, ha]
        exact .var rfl rfl ha
      | none => exact .neither rfl rfl

theorem chosen_of_option {α : Type} {reads : String → Option α} {flag : Option String}
    (h : ∀ s, flag = some s → (reads s).isSome = true) :
    Chosen reads flag none (flag.bind reads) := by
  rw [chosen_iff, Option.or_none]
  exact ⟨h, rfl⟩

theorem orVariable_eq_ok_iff {flag o : Option String}
    (hflag : ∀ s, flag = some s → accepts s = true) :
    orVariable env name accepts flag = .ok o ↔
      (∀ s, flag.or (env name) = some s → accepts s = true) ∧ o = flag.or (env name) := by
  unfold orVariable
  split
  · next v _ =>
    rw [Option.some_or, Except.ok.injEq]
    exact ⟨fun h => ⟨hflag, h.symm⟩, fun h => h.2.symm⟩
  · next v hv =>
    rw [hv, Option.none_or]
    split
    · next ha =>
      rw [Except.ok.injEq]
      refine ⟨fun h => ⟨fun s hs => ?_, h.symm⟩, fun h => h.2.symm⟩
      cases hs
      exact ha
    · next ha => exact iff_of_false (fun h => by cases h) fun h => ha (h.1 v rfl)
  · next hv =>
    rw [hv, Option.none_or, Except.ok.injEq]
    exact ⟨fun h => ⟨fun s hs => (by cases hs), h.symm⟩, fun h => h.2.symm⟩

theorem acceptsPath_eq (s : String) : acceptsPath s = (path? s).isSome := by
  rw [acceptsPath, path?]
  split <;> simp [*]

theorem bind_path? {o : Option String} (h : ∀ s, o = some s → acceptsPath s = true) :
    o.bind path? = o := by
  cases o with
  | none => rfl
  | some s =>
    have hs := h s rfl
    rw [acceptsPath, Bool.not_eq_true'] at hs
    rw [Option.bind_some, path?, if_neg (by simp [hs])]

/-- Every value option is given with an acceptable value. -/
theorem Spells.given_value (h : Spells allOptions given args) {i : Nat}
    (hi : allOptions[i]? = some ⟨name, .value accepts⟩) :
    ∀ s, given? given name = some s → accepts s = true := fun _ hs =>
  h.accepts_value distinct_allOptions (List.mem_of_getElem? hi) (mem_of_given? hs)

theorem Spells.orVariable_iff (h : Spells allOptions given args) {i : Nat}
    (hi : allOptions[i]? = some ⟨name, .value accepts⟩) {var : String} {o : Option String} :
    orVariable env var accepts (given? given name) = .ok o ↔
      (∀ s, (given? given name).or (env var) = some s → accepts s = true) ∧
        o = (given? given name).or (env var) :=
  orVariable_eq_ok_iff (h.given_value hi)

/-- The environment is asked for a setting only where its option is not given. -/
theorem parse_eq_ok_iff {a : Arguments} : parse args env = .ok a ↔
    ∃ given, Spells allOptions given args ∧ (given.map Prod.fst).Nodup ∧ a.ReadFrom given env := by
  constructor
  · intro h
    obtain ⟨given, hgiven, h⟩ := bind_eq_ok_iff.mp h
    obtain ⟨limit, hlimit, h⟩ := bind_eq_ok_iff.mp h
    obtain ⟨timeout, htimeout, h⟩ := bind_eq_ok_iff.mp h
    obtain ⟨fixture, hfixture, h⟩ := bind_eq_ok_iff.mp h
    cases h
    obtain ⟨hspells, hn⟩ := (scan_eq_ok_iff distinct_allOptions).mp hgiven
    obtain ⟨hlimit', rfl⟩ := (hspells.orVariable_iff (i := 2) rfl).mp hlimit
    obtain ⟨htimeout', rfl⟩ := (hspells.orVariable_iff (i := 3) rfl).mp htimeout
    obtain ⟨hfixture', rfl⟩ := (hspells.orVariable_iff (i := 4) rfl).mp hfixture
    refine ⟨given, hspells, hn, rfl, rfl, ?_, ?_, ?_, ?_, ?_⟩
    · exact chosen_iff.mpr ⟨hlimit', rfl⟩
    · exact chosen_iff.mpr ⟨htimeout', rfl⟩
    · exact chosen_iff.mpr
        ⟨fun s hs => (acceptsPath_eq s).symm.trans (hfixture' s hs), (bind_path? hfixture').symm⟩
    · exact chosen_of_option (hspells.given_value (i := 6) rfl)
    · exact chosen_of_option (hspells.given_value (i := 7) rfl)
  · rintro ⟨given, hspells, hn, hconfig, hjson, hlimit, htimeout, hfixture, hlevel, hformat⟩
    obtain ⟨hlimit, hlimit'⟩ := chosen_iff.mp hlimit
    obtain ⟨htimeout, htimeout'⟩ := chosen_iff.mp htimeout
    obtain ⟨hfixture, hfixture'⟩ := chosen_iff.mp hfixture
    have hpath : ∀ s, (given? given "fixture").or (env "OOM_FIXTURE") = some s →
        acceptsPath s = true := fun s hs => (acceptsPath_eq s).trans (hfixture s hs)
    rw [bind_path? hpath] at hfixture'
    obtain ⟨-, hlevel⟩ := chosen_iff.mp hlevel
    obtain ⟨-, hformat⟩ := chosen_iff.mp hformat
    rw [Option.or_none] at hlevel hformat
    refine bind_eq_ok_iff.mpr ⟨given, (scan_eq_ok_iff distinct_allOptions).mpr ⟨hspells, hn⟩, ?_⟩
    refine bind_eq_ok_iff.mpr ⟨_, (hspells.orVariable_iff (i := 2) rfl).mpr ⟨hlimit, rfl⟩, ?_⟩
    refine bind_eq_ok_iff.mpr ⟨_, (hspells.orVariable_iff (i := 3) rfl).mpr ⟨htimeout, rfl⟩, ?_⟩
    refine bind_eq_ok_iff.mpr ⟨_, (hspells.orVariable_iff (i := 4) rfl).mpr ⟨hpath, rfl⟩, ?_⟩
    obtain ⟨config, ⟨limit, timeout, fixture⟩, json, ⟨level, format⟩⟩ := a
    dsimp only at *
    rw [hconfig, hjson, hlimit', htimeout', hfixture', hlevel, hformat]
    rfl

end HeapPressure.CommandLine
