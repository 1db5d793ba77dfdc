import HeapPressure.Exhaust.Exhauster
import HeapPressure.Log.Session
import HeapPressure.Text.Utf8

/-!
The fixture: a process that exhausts its heap with a quiet log, and leaves without releasing
what it holds.
-/
namespace HeapPressure.Exhaust

/-- What the fixture leaves at its end. -/
structure Departure where
  exitCode : Nat
  /-- Lines on the error stream. Nothing is written to the output. -/
  lines : List Log.LogLine := []
  /-- What has ended it, if it did not end by itself. -/
  overflow : Option Overflow := none
  /-- Chunks obtained and never released. -/
  held : Nat

/-- The exit code of a process that an overflow ends. -/
def panicExitCode : Nat := 101

def component : String := "alloc-exhaust"

def invalidPlanEvent (e : PlanError) : Log.Event where
  level := .warn
  target := "alloc_exhaust"
  message := "invalid chunk configuration"
  fields := [("error", .text e.message)]

/-- The end of the fixture in its surroundings, with the log filter that the environment asks for.
While its loop goes on there is none. -/
def depart {σ : Type} (s : Surroundings σ) (allocator : σ) (filter : Option String) :
    Option Departure :=
  let log := ({ environment := filter } : Log.Session).initFixture component
  match Exhauster.start {} allocator with
  | .error e => some { exitCode := 0, lines := (log.emit (invalidPlanEvent e)).lines, held := 0 }
  | .ok start =>
    let r := start.runLogged s
    if r.exhauster.isStopped then
      let lines := (log.emitAll r.events).lines
      let held := r.exhauster.retained.size
      match r.report with
      | .ok _ => some { exitCode := 0, lines, held }
      | .error overflow => some { exitCode := panicExitCode, lines, overflow, held }
    else none

/-- The bytes on the error stream. Of the notice of an overflow only the message is told. -/
def Departure.errorBytes (d : Departure) : List UInt8 :=
  (d.lines.flatMap fun l => Text.Utf8.encode (l.event.plainText ++ "\n").toList)
    ++ d.overflow.elim [] fun o => Text.Utf8.encode (o.message ++ "\n").toList

end HeapPressure.Exhaust
