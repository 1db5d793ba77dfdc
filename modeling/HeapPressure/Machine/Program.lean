import HeapPressure.Exhaust.Fixture
import HeapPressure.Harness.Launch
import HeapPressure.Shell.Run

/-!
What the programs of a machine do from their start to their end when nobody interferes.
-/
namespace HeapPressure

/-- A machine: its files, its memory in bytes, the harness's environment, and where the harness
stands with its fixture beside it. -/
structure Machine where
  files : Machine.Files
  memory : Nat := 0x400000000
  environment : List (String × String) := []
  programDirectory : String

namespace Machine

/-- The course of a process: when it ends, if it does, the status it ends with, and what it
writes, the latest first. -/
structure Course where
  ending : Option (Nat × Int32)
  written : List Shell.Write

namespace Course

/-- The status of a process that has exited, and of one that a signal has ended. -/
def exited (code : Nat) : Int32 := Int32.ofNat (code % 256 * 256)

def signalled (n : Nat) : Int32 := Int32.ofNat n

/-- Cuts a course off at a time. -/
def cutAt (time : Nat) (status : Int32) (c : Course) : Course where
  ending := some (time, status)
  written := c.written.filter fun w => w.time ≤ time

/-- What became of a program. Signals that are still on their way when it goes on in the place of
another end it all the same. -/
def ofResult (r : Shell.Result) : Course :=
  let (f, s) := r
  let course : Course :=
    match f with
    | .stuck => ⟨none, s.written⟩
    | .killed n => ⟨some (s.clock, signalled n), s.written⟩
    | .died n => ⟨some (s.clock, signalled n), s.written⟩
    | _ => ⟨some (s.clock, exited s.status), s.written⟩
  match s.alarms.find? fun a => Shell.haltedBy? s a == some (.killed a.2) with
  | none => course
  | some (time, n) =>
    if (course.ending.map fun e => decide (time < e.1)).getD true then
      course.cutAt time (signalled n)
    else course

end Course

/-- A limit of all ones is none. -/
def limitInForce (l : Harness.Launch) : Option Nat :=
  (l.memoryLimitBytes.map UInt64.toNat).filter (· < 0xFFFFFFFFFFFFFFFF)

/-- The limits in force: on the stack, as usual, and on memory, if there is one. -/
def limitsInForce (l : Harness.Launch) : List (Char × Shell.Limit) :=
  ('s', ⟨some 0x800000, none⟩)
    :: ((limitInForce l).map fun n => ('v', (⟨some n, some n⟩ : Shell.Limit))).toList

/-- The state in which a program starts. -/
def startState (m : Machine) (l : Harness.Launch) : Shell.State where
  files := m.files
  limits := limitsInForce l
  name := l.program
  args := l.args
  bindings := Harness.childEnvironment m.environment
  exported := (Harness.childEnvironment m.environment).map Prod.fst

/-- The memory that the fixture takes to begin at all. -/
def fixtureImageBytes : Nat := 0x100001

/-- The course of the fixture in surroundings `s`, started from this environment of the harness.
It takes no time if it ends, and whatever its arguments are it does not look at them. -/
def Course.ofFixture {σ : Type} (environment : List (String × String))
    (s : Exhaust.Surroundings σ) (allocator : σ) : Course :=
  match Exhaust.depart s allocator
      ((Harness.childEnvironment environment).lookup Harness.filterVariable) with
  | none => ⟨none, []⟩
  | some d => ⟨some (0, exited d.exitCode), [⟨0, .error, d.errorBytes, 0⟩]⟩

/-- The fixture has the memory that its limit leaves it, and room for its list. -/
def fixtureCourse (m : Machine) (l : Harness.Launch) : Course :=
  let limit := (limitInForce l).getD m.memory
  if limit < fixtureImageBytes then ⟨some (0, Course.signalled 11), []⟩
  else
    .ofFixture m.environment (.ofStack .roomy true)
      (Memory.Stack.capped ⟨min limit m.memory, 0⟩ .heap)

/-- The course of a program that can be run. -/
def course (m : Machine) (program : String) (l : Harness.Launch) : Course :=
  if program == Settings.fixtureName then m.fixtureCourse l
  else .ofResult (Shell.runProgram program l.args (m.startState l))

end Machine
end HeapPressure
