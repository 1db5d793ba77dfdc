import HeapPressure.Report.Verdict
import HeapPressure.Report.Usage
import HeapPressure.Text.Utf8

/-!
Reports on finished runs: the verdict, how the process ended, what it used and what it wrote.
-/
namespace HeapPressure

structure Report where
  verdict : Verdict
  exitCode : Option Int32
  signal : Option Int32
  wallTimeMillis : UInt64
  cpuTimeMicros : UInt64
  peakMemoryBytes : UInt64
  memoryLimitBytes : Option UInt64
  stdout : String
  stderr : String
deriving DecidableEq

namespace Report

/-- Only so many leading bytes of each stream are kept. -/
def keptOutputBytes : Nat := 200

/-- The leading bytes of a stream as text. -/
def head (bytes : List UInt8) : String :=
  String.ofList (Text.Utf8.lossy (bytes.take keptOutputBytes))

/-- A report without usage and output. -/
def ofOutcome (outcome : ExitOutcome) (timedOut : Bool) (memoryLimitBytes : Option UInt64) :
    Report where
  verdict := classify outcome timedOut
  exitCode := outcome.code
  signal := outcome.signal
  wallTimeMillis := 0
  cpuTimeMicros := 0
  peakMemoryBytes := 0
  memoryLimitBytes := memoryLimitBytes
  stdout := ""
  stderr := ""

def withUsage (wallTimeMillis : UInt64) (usage : Usage) (r : Report) : Report :=
  { r with
    wallTimeMillis := wallTimeMillis
    cpuTimeMicros := usage.cpuTimeMicros
    peakMemoryBytes := usage.peakMemoryBytes }

def withOutput (stdout stderr : List UInt8) (r : Report) : Report :=
  { r with stdout := head stdout, stderr := head stderr }

/-- An exit code that is absent is written as -1, a signal that is absent as 0. -/
def display (r : Report) : String :=
  "status: " ++ r.verdict.name
    ++ "\nexit code: " ++ toString ((r.exitCode.map Int32.toInt).getD (-1))
    ++ "\nsignal: " ++ toString ((r.signal.map Int32.toInt).getD 0)
    ++ "\nstdout: " ++ r.stdout
    ++ "\nstderr: " ++ r.stderr
    ++ "\ncpu: " ++ toString r.cpuTimeMicros.toNat ++ " usec"
    ++ "\nmemory: " ++ toString r.peakMemoryBytes.toNat ++ " bytes"
    ++ "\nmemory limit: "
    ++ (match r.memoryLimitBytes with
      | some bytes => toString bytes.toNat ++ " bytes"
      | none => "none")
    ++ "\nwall time: " ++ toString r.wallTimeMillis.toNat ++ " ms"

end Report
end HeapPressure
