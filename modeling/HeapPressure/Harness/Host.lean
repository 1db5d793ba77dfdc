import HeapPressure.Harness.Launch
import HeapPressure.Harness.Watch

/-!
The host as the harness sees it: files that can be read or are there, and children that can be
started.
-/
namespace HeapPressure.Harness

/-- A started child: the answers about it and the readings of the clock while it is watched,
what it writes until its group is gone, and the time when all is over. -/
structure Child where
  answers : List Answer
  clock : List Nat
  stdout : List UInt8
  stderr : List UInt8
  wallTimeMillis : Nat

structure Host where
  readFile : String → Except SystemError (List UInt8)
  pathExists : String → Bool
  /-- The directory of the running program, if it can be told. -/
  programDirectory : Except SystemError String
  start : Launch → Except SystemError Child

/-- Settings from a file. -/
def loadSettings (host : Host) (path : String) : Except Error Settings := do
  let text ←
    match host.readFile path with
    | .error e => .error (.configRead path e)
    | .ok bytes =>
      match Text.Utf8.strict? bytes with
      | some cs => .ok (String.ofList cs)
      | none => .error (.configRead path .invalidUtf8)
  (Settings.ofToml text).mapError Error.ofRead

/-- A name in a directory, whose path may end in a slash. -/
def pathIn (directory name : String) : String :=
  match directory.toList.getLast? with
  | none | some '/' => directory ++ name
  | some _ => directory ++ "/" ++ name

/-- The fixture beside the running program. -/
def Host.besideProgram (host : Host) : Except SystemError String :=
  host.programDirectory.map fun directory => pathIn directory Settings.fixtureName

/-- The fixture that the settings name, or the one beside the program, which only then has to be
found. -/
def fixturePath (host : Host) (s : Settings) : Except Error String := do
  let path ← ((s.fixture.map .ok).getD host.besideProgram).mapError Error.system
  if host.pathExists path then .ok path else .error (.fixtureNotFound path)

theorem fixturePath_eq (host : Host) (s : Settings) : fixturePath host s =
    match (s.fixture.map .ok).getD host.besideProgram with
    | .error e => .error (.system e)
    | .ok path => if host.pathExists path then .ok path else .error (.fixtureNotFound path) := by
  unfold fixturePath
  cases (s.fixture.map .ok).getD host.besideProgram <;> rfl

theorem fixturePath_eq_ok_iff {host : Host} {s : Settings} {path : String} :
    fixturePath host s = .ok path ↔
      (s.fixture.map .ok).getD host.besideProgram = .ok path ∧ host.pathExists path = true := by
  rw [fixturePath_eq]
  cases (s.fixture.map .ok).getD host.besideProgram with
  | error e => simp
  | ok named =>
    by_cases hthere : host.pathExists named = true
    · simp only [hthere, if_true, Except.ok.injEq]
      exact ⟨fun h => ⟨h, h ▸ hthere⟩, And.left⟩
    · simp only [hthere]
      refine ⟨fun h => (by cases h), ?_⟩
      rintro ⟨⟨⟩, h⟩
      exact absurd h hthere

def Launch.ofSettings (host : Host) (s : Settings) : Except Error Launch :=
  (fixturePath host s).map fun program =>
    { program, memoryLimitBytes := s.memoryLimitBytes, timeoutMillis := s.timeoutMillis }

end HeapPressure.Harness
