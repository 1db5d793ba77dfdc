import HeapPressure.Proofs.Harness.Preparation
import HeapPressure.Proofs.Harness.Watch
import HeapPressure.Proofs.Report.Json
import HeapPressure.Proofs.Report.Verdicts

/-!
How the harness ends. Its exit status is zero exactly when there is a report with an accepted
verdict, and its output is that report or nothing.
-/
namespace HeapPressure.Harness

open CommandLine (Arguments Environment Spells allOptions given?)

/-- The child comes to an end, and until then the clock can be read after each answer. -/
structure Child.Ends (c : Child) : Prop where
  ends : ∃ e ∈ c.answers, e.isEnd = true
  clock : c.answers.length ≤ c.clock.length

/-- What is started under a limit of some mebibytes and a timeout of some seconds. -/
def launchUnder (mb secs : UInt64) (path : String) : Launch where
  program := path
  memoryLimitBytes := if mb = 0 then none else some (mb * 0x100000)
  timeoutMillis := secs.toNat * 1000

/-- The settings are resolved: the file is without fault, each setting is the first one present,
the merged values keep the bounds, and it is known where the fixture should be. -/
structure Resolves (host : Host) (given : List (String × String)) (env : Environment)
    (mb secs : UInt64) (path : String) : Prop where
  settled : ∃ l, FileSays host (given? given "config") l ∧
    Merged host given env l mb secs (.ok path)
  timeout : secs ≠ 0
  limit : mb.toNat < 0x100000000000

/-- Beyond that the fixture is there, and a child is started and reaped. -/
structure Completes (host : Host) (given : List (String × String)) (env : Environment)
    (mb secs : UInt64) (path : String) (child : Child) (status : Int32) (counts : ResourceCounts) :
    Prop extends Resolves host given env mb secs path where
  there : host.pathExists path = true
  started : host.start (launchUnder mb secs path) = .ok child
  reaped : child.answers.find? Answer.isEnd = some (.reaped status counts)

/-- The report on a child that was reaped. -/
inductive Reports (host : Host) (given : List (String × String)) (env : Environment) :
    Report → Prop where
  | mk {mb secs : UInt64} {path : String} {child : Child} {status : Int32}
      {counts : ResourceCounts} {w : Watch} {timedOut : Bool}
      (h : Completes host given env mb secs path child status counts)
      (hwatch : watch (secs.toNat * 1000) child.answers child.clock = some w)
      (hresult : w.result = .ok (⟨status, .ofCounts counts⟩, timedOut)) :
      Reports host given env
        (reportOn (launchUnder mb secs path) child ⟨status, .ofCounts counts⟩ timedOut)

variable {host : Host} {given : List (String × String)} {env : Environment} {a : Arguments}
  {l : Launch} {r : Report} {x : Run} {o : Outcome}

theorem run_ends (h : ∀ child, host.start l = .ok child → child.Ends) :
    ∃ run, Harness.run host l = some run := by
  unfold Harness.run
  cases hstart : host.start l with
  | error e => exact ⟨_, rfl⟩
  | ok child =>
    obtain ⟨hend, hclock⟩ := h child hstart
    obtain ⟨w, hw⟩ : ∃ w, watch l.timeoutMillis child.answers child.clock = some w :=
      Watch.run_ends hend hclock
    exact ⟨_, congrArg (Option.map _) hw⟩

theorem memoryLimitBytes_of_valid {s : Settings} (h : s.Valid) : s.memoryLimitBytes =
    if s.memoryLimitMb = 0 then none else some (s.memoryLimitMb * 0x100000) := by
  split
  · next hzero => exact Settings.memoryLimitBytes_of_eq_zero hzero
  · next hne =>
    rw [Settings.memoryLimitBytes_of_lt hne h.memoryLimitMb_lt, Option.some.injEq,
      ← UInt64.toNat_inj, Settings.toNat_bytes h.memoryLimitMb_lt, UInt64.toNat_mul]
    have hlt := h.memoryLimitMb_lt
    change _ = s.memoryLimitMb.toNat * 0x100000 % 0x10000000000000000
    omega

theorem ofSettings_of_valid {s : Settings} (h : s.Valid) : Launch.ofSettings host s = .ok l ↔
    ∃ path, (s.fixture.map .ok).getD host.besideProgram = .ok path ∧
      host.pathExists path = true ∧ l = launchUnder s.memoryLimitMb s.timeoutSecs path := by
  simp only [Launch.ofSettings, map_eq_ok_iff, fixturePath_eq_ok_iff, launchUnder,
    ← memoryLimitBytes_of_valid h, and_assoc]
  constructor
  · rintro ⟨path, hnamed, hthere, rfl⟩
    exact ⟨path, hnamed, hthere, rfl⟩
  · rintro ⟨path, hnamed, hthere, rfl⟩
    exact ⟨path, hnamed, hthere, rfl⟩

/-- The harness gets as far as a launch exactly when the settings are resolved and the fixture is
there. -/
theorem resolves_iff (hread : a.ReadFrom given env) :
    (∃ p, prepare host a = .ok p ∧ Launch.ofSettings host p.settings = .ok l) ↔
      ∃ mb secs path, Resolves host given env mb secs path ∧ host.pathExists path = true ∧
        l = launchUnder mb secs path := by
  constructor
  · rintro ⟨p, hprepare, hlaunch⟩
    obtain ⟨layer, hfile, hvalid, rfl⟩ := prepare_eq_ok_iff.mp hprepare
    obtain ⟨path, hnamed, hthere, rfl⟩ := (ofSettings_of_valid hvalid).mp hlaunch
    have hmerged := (merged_iff hread).mpr ⟨rfl, rfl, hnamed.symm⟩
    exact ⟨_, _, path, ⟨⟨layer, hread.config ▸ hfile, hmerged⟩, hvalid.timeoutSecs_ne_zero,
      hvalid.memoryLimitMb_lt⟩, hthere, rfl⟩
  · rintro ⟨mb, secs, path, ⟨⟨layer, hfile, hmerged⟩, htimeout, hlimit⟩, hthere, rfl⟩
    obtain ⟨rfl, rfl, hnamed⟩ := (merged_iff hread).mp hmerged
    have hvalid : (layer.settings.override a.overrides).Valid := ⟨htimeout, hlimit⟩
    exact ⟨_, prepare_eq_ok_iff.mpr ⟨layer, hread.config ▸ hfile, hvalid, rfl⟩,
      (ofSettings_of_valid hvalid).mpr ⟨path, hnamed.symm, hthere, rfl⟩⟩

theorem runChild_result (l : Launch) (c : Child) : (runChild l c).map Run.result =
    (watch l.timeoutMillis c.answers c.clock).map fun w =>
      (w.result.mapError Error.system).map fun e => reportOn l c e.1 e.2 := by
  rw [runChild, Option.map_map]
  refine congrArg (Option.map · _) (funext fun w => ?_)
  cases hresult : w.result <;> simp only [Function.comp_apply, hresult] <;> rfl

theorem run_reports_iff : (run host l).map Run.result = some (.ok r) ↔
    ∃ child w e, host.start l = .ok child ∧
      watch l.timeoutMillis child.answers child.clock = some w ∧ w.result = .ok e ∧
      r = reportOn l child e.1 e.2 := by
  rw [run]
  cases hstart : host.start l with
  | error e => simp
  | ok child =>
    simp only [runChild_result, Option.map_eq_some_iff, map_eq_ok_iff, mapError_eq_ok_iff]
    constructor
    · rintro ⟨w, hw, e, he, rfl⟩
      exact ⟨child, w, e, rfl, hw, he, rfl⟩
    · rintro ⟨_, w, e, ⟨⟩, hw, he, rfl⟩
      exact ⟨w, hw, e, he, rfl⟩

/-- The report or the failure before anything is printed. -/
def attempt (host : Host) (a : Arguments) : Option (Except Failure Report) :=
  match prepare host a with
  | .error f => some (.error f)
  | .ok p =>
    match inContext "preparing fixture" (Launch.ofSettings host p.settings) with
    | .error f => some (.error f)
    | .ok l => (run host l).map fun x => inContext "running fixture" x.result

def Outcome.of (json : Bool) : Except Failure Report → Outcome
  | .error f => .ofFailure f
  | .ok r => .ofReport json r

theorem Outcome.exitCode_of (json : Bool) (e : Except Failure Report) :
    ((Outcome.of json e).exitCode = 0 ↔ ∃ r, e = .ok r ∧ r.verdict.isAccepted = true) ∧
      ((Outcome.of json e).exitCode ≠ 0 → (Outcome.of json e).exitCode = 1) := by
  cases e with
  | error f => simp [Outcome.of, Outcome.ofFailure]
  | ok r => cases h : r.verdict.isAccepted <;> simp [Outcome.of, Outcome.ofReport, h]

/-- The text of a report is its display, or in JSON is read as the report. -/
theorem reportText_cases (json : Bool) (r : Report) :
    (json = false → reportText json r = r.display) ∧
      (json = true → Report.ofJson (reportText json r) = .ok r) := by
  constructor
  · rintro rfl
    rfl
  · rintro rfl
    exact Report.ofJson_of_read (Json.read_pretty r.document)

theorem perform_eq (host : Host) (a : Arguments) :
    perform host a = (attempt host a).map (Outcome.of a.json) := by
  rw [perform, attempt]
  cases prepare host a with
  | error f => rfl
  | ok p =>
    dsimp only
    cases inContext "preparing fixture" (Launch.ofSettings host p.settings) with
    | error f => rfl
    | ok l =>
      rw [Option.map_map]
      refine congrArg (Option.map · _) (funext fun x => ?_)
      cases hresult : x.result <;> simp [inContext, Outcome.of, hresult]

theorem attempt_of_launch {p : Prepared} (hprepare : prepare host a = .ok p)
    (hlaunch : Launch.ofSettings host p.settings = .ok l) :
    attempt host a = (run host l).map fun x => inContext "running fixture" x.result := by
  simp only [attempt, hprepare, hlaunch, inContext]

theorem attempt_reports_iff (hread : a.ReadFrom given env) :
    attempt host a = some (.ok r) ↔ Reports host given env r := by
  constructor
  · intro h
    unfold attempt at h
    split at h
    · cases h
    · next p hprepare =>
      split at h
      · cases h
      · next l hlaunch =>
        obtain ⟨x, hrun, hresult⟩ := Option.map_eq_some_iff.mp h
        have hrun := (congrArg (Option.map Run.result) hrun).trans
          (congrArg some (inContext_eq_ok_iff.mp hresult))
        obtain ⟨mb, secs, path, hresolves, hthere, rfl⟩ :=
          (resolves_iff hread).mp ⟨p, hprepare, inContext_eq_ok_iff.mp hlaunch⟩
        obtain ⟨child, w, e, hstart, hwatch, he, rfl⟩ := run_reports_iff.mp hrun
        obtain ⟨answer, hanswer, hends⟩ := Watch.run_endsAs hwatch
        rw [he] at hends
        cases hends with
        | reaped => exact .mk ⟨hresolves, hthere, hstart, hanswer⟩ hwatch he
  · rintro ⟨⟨hresolves, hthere, hstart, -⟩, hwatch, hresult⟩
    obtain ⟨p, hprepare, hlaunch⟩ :=
      (resolves_iff hread).mpr ⟨_, _, _, hresolves, hthere, rfl⟩
    obtain ⟨x, hrun, hx⟩ := Option.map_eq_some_iff.mp
      (run_reports_iff.mpr ⟨_, _, _, hstart, hwatch, hresult, rfl⟩)
    simp only [attempt_of_launch hprepare hlaunch, hrun, Option.map_some, hx, inContext]

/-- A child that is reaped is reported on, once the watch is over. -/
theorem Completes.reports (hread : a.ReadFrom given env) {mb secs : UInt64} {path : String}
    {child : Child} {status : Int32} {counts : ResourceCounts}
    (h : Completes host given env mb secs path child status counts) {e : Except Failure Report}
    (he : attempt host a = some e) : ∃ r, Reports host given env r := by
  obtain ⟨p, hprepare, hlaunch⟩ :=
    (resolves_iff hread).mpr ⟨_, _, _, h.toResolves, h.there, rfl⟩
  simp only [attempt_of_launch hprepare hlaunch, run, h.started] at he
  obtain ⟨x, hx, -⟩ := Option.map_eq_some_iff.mp he
  obtain ⟨w, hwatch, -⟩ := Option.map_eq_some_iff.mp hx
  obtain ⟨answer, hanswer, hends⟩ := Watch.run_endsAs hwatch
  cases h.reaped.symm.trans hanswer
  generalize hresult : w.result = result at hends
  cases hends
  exact ⟨_, .mk h hwatch hresult⟩

theorem attempt_ends (h : ∀ l child, host.start l = .ok child → child.Ends) :
    ∃ e, attempt host a = some e := by
  unfold attempt
  split
  · exact ⟨_, rfl⟩
  · split
    · exact ⟨_, rfl⟩
    · next l _ =>
      obtain ⟨x, hx⟩ := run_ends (h l)
      exact ⟨_, congrArg (Option.map _) hx⟩

/-- When every child comes to an end the harness exits, with 0 or 1. It has a report exactly when
the settings that the options spell are resolved, the fixture is there, and a child is started and
reaped; it exits with 0 exactly when the verdict of that report is accepted. It prints nothing
without a report; otherwise it prints the report's text and a newline, or a JSON text that is read
as that report. -/
theorem exit_tells_verdict (host : Host) (args : List String) (env : Environment) (a : Arguments)
    (h : CommandLine.parse args env = .ok a) :
    ∃ given, Spells allOptions given args ∧ (given.map Prod.fst).Nodup ∧ a.ReadFrom given env ∧
    ((∀ l child, host.start l = .ok child → child.Ends) → ∃ o, orchestrate host args env = some o) ∧
    ∀ o, orchestrate host args env = some o →
      ((∃ r, Reports host given env r) ↔ ∃ mb secs path child status counts,
        Completes host given env mb secs path child status counts) ∧
      (o.exitCode = 0 ↔ ∃ r, Reports host given env r ∧
        (r.verdict = .ok ∨ r.verdict = .memoryLimitExceeded)) ∧
      (o.exitCode ≠ 0 → o.exitCode = 1) ∧
      ((∀ r, ¬Reports host given env r) → o.stdout = "") ∧
      ∀ r, Reports host given env r → ∃ text, o.stdout = text ++ "\n" ∧
        (a.json = false → text = r.display) ∧ (a.json = true → Report.ofJson text = .ok r) := by
  obtain ⟨given, hspells, hn, hread⟩ := CommandLine.parse_eq_ok_iff.mp h
  have horchestrate : orchestrate host args env = (attempt host a).map (Outcome.of a.json) := by
    rw [orchestrate, h]
    exact perform_eq host a
  rw [horchestrate]
  refine ⟨given, hspells, hn, hread, fun hends => ?_, fun o ho => ?_⟩
  · obtain ⟨e, he⟩ := attempt_ends (a := a) hends
    exact ⟨_, congrArg (Option.map _) he⟩
  · obtain ⟨e, he, rfl⟩ := Option.map_eq_some_iff.mp ho
    have hreports {r : Report} : Reports host given env r ↔ e = .ok r := by
      rw [← attempt_reports_iff hread, he, Option.some.injEq]
    obtain ⟨hzero, hone⟩ := Outcome.exitCode_of a.json e
    refine ⟨⟨?_, ?_⟩, ?_, hone, fun hnone => ?_, fun r hr => ?_⟩
    · rintro ⟨r, hr⟩
      cases hr with
      | mk hc => exact ⟨_, _, _, _, _, _, hc⟩
    · rintro ⟨mb, secs, path, child, status, counts, hc⟩
      exact hc.reports hread he
    · rw [hzero]
      exact exists_congr fun r => and_congr hreports.symm Verdict.isAccepted_iff
    · cases e with
      | error f => rfl
      | ok r => exact absurd (hreports.mpr rfl) (hnone r)
    · cases hreports.mp hr
      obtain ⟨hdisplay, hjson⟩ := reportText_cases a.json r
      exact ⟨reportText a.json r, rfl, hdisplay, hjson⟩

/-- A child that is killed for its memory is accepted, and its report is printed as JSON. -/
theorem exit_tells_verdict_killed :
    let child : Child := {
      answers := [.running, .interrupted, .reaped 9 ⟨2048, 0, 1500, 0, 500⟩]
      clock := [0, 50, 100]
      stdout := [0x68, 0x69]
      stderr := []
      wallTimeMillis := 60 }
    let host : Host := {
      readFile := fun _ => .error .notFound
      pathExists := fun path => path == "/bin/alloc_exhaust"
      programDirectory := .ok "/bin"
      start := fun _ => .ok child }
    let args := ["--json"]
    let a : Arguments := { json := true }
    CommandLine.parse args (fun _ => none) = .ok a ∧
      (∀ l child, host.start l = .ok child → child.Ends) ∧
      ∃ given o r text, Spells allOptions given args ∧
        orchestrate host args (fun _ => none) = some o ∧
        Reports host given (fun _ => none) r ∧ r.verdict = .memoryLimitExceeded ∧
        o.exitCode = 0 ∧ o.stdout = text ++ "\n" ∧ Report.ofJson text = .ok r := by
  intro child host args a
  have hparse : CommandLine.parse args (fun _ => none) = .ok a := by rfl
  have hends : ∀ l child, host.start l = .ok child → child.Ends := by
    rintro l _ ⟨⟩
    exact ⟨⟨_, List.mem_of_getElem? (i := 2) rfl, rfl⟩, by decide⟩
  obtain ⟨given, hspells, -, hread, hexits, houtcome⟩ :=
    exit_tells_verdict host args (fun _ => none) a hparse
  obtain ⟨o, ho⟩ := hexits hends
  obtain ⟨-, hzero, -, -, hprinted⟩ := houtcome o ho
  have hfile : FileSays host (given? given "config") {} := hread.config ▸ .none
  have hbeside : host.besideProgram = .ok "/bin/alloc_exhaust" := by decide +kernel
  have hmerged : Merged host given (fun _ => none) {} 256 15 (.ok "/bin/alloc_exhaust") :=
    (merged_iff hread).mpr ⟨rfl, rfl, hbeside.symm⟩
  have hlimit : (256 : UInt64).toNat < 0x100000000000 := by decide
  have hresolves : Resolves host given (fun _ => none) 256 15 "/bin/alloc_exhaust" :=
    ⟨⟨{}, hfile, hmerged⟩, by decide, hlimit⟩
  have hcompletes : Completes host given (fun _ => none) 256 15 "/bin/alloc_exhaust" child 9
      ⟨2048, 0, 1500, 0, 500⟩ :=
    ⟨hresolves, by decide +kernel, rfl, rfl⟩
  have hmillis : (15 : UInt64).toNat * 1000 = 15000 := by decide
  obtain ⟨w, hwatch, hresult⟩ : ∃ w, watch 15000 child.answers child.clock = some w ∧
      w.result = .ok (⟨9, .ofCounts ⟨2048, 0, 1500, 0, 500⟩⟩, false) := ⟨_, rfl, rfl⟩
  have hreports := Reports.mk hcompletes (hmillis ▸ hwatch) hresult
  obtain ⟨text, htext, -, hjson⟩ := hprinted _ hreports
  exact ⟨hparse, hends, given, o, _, text, hspells, ho, hreports, rfl,
    hzero.mpr ⟨_, hreports, .inr rfl⟩, htext, hjson rfl⟩

end HeapPressure.Harness
