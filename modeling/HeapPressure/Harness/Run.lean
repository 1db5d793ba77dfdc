import HeapPressure.Harness.Host
import HeapPressure.Report.Basic
import HeapPressure.Log.Event

/-!
One run of a child, from its start to the report on it.
-/
namespace HeapPressure.Harness

/-- What came of a run: the report or the error, what was logged, and what was done. -/
structure Run where
  result : Except Error Report
  events : List Log.Event
  acts : List Act

def logTarget : String := "oom_enforcement::runner"

private def event (level : Log.Level) (message : String)
    (fields : List (String × Log.FieldValue)) (momentary : List String := []) : Log.Event :=
  { level, target := logTarget, message, fields, momentary }

def startingEvent (l : Launch) : Log.Event :=
  event .info "starting fixture" [
    ("program", .text (Text.quoted l.program)),
    ("memory_limit_bytes", .text (optionText (fun b => toString b.toNat) l.memoryLimitBytes)),
    ("timeout_secs", .seconds l.timeoutMillis)]

def constructedEvent : Log.Event := event .debug "constructed fixture command" [] ["cmd"]

def startedEvent : Log.Event := event .info "fixture process started" [] ["pid"]

def timeoutEvent (l : Launch) : Log.Event :=
  event .warn "fixture timeout reached - terminating process group"
    [("timeout_secs", .seconds l.timeoutMillis)]

private def signedText (n : Int32) : String := toString n.toInt

def completedEvent (r : Report) : Log.Event :=
  event .info "fixture completed" [
    ("verdict", .text r.verdict.name),
    ("exit_code", .text (optionText signedText r.exitCode)),
    ("signal", .text (optionText signedText r.signal))]
    ["wall_time_ms", "cpu_time_us", "peak_memory_bytes"]

def reportOn (l : Launch) (c : Child) (reaped : Reaped) (timedOut : Bool) : Report :=
  ((Report.ofOutcome (.ofStatus reaped.status) timedOut l.memoryLimitBytes).withUsage
    (saturate c.wallTimeMillis) reaped.usage).withOutput c.stdout c.stderr

/-- When the watch fails its error is passed on at once; otherwise the child's group is killed
and its output collected before the report is made. -/
def runChild (l : Launch) (c : Child) : Option Run :=
  (watch l.timeoutMillis c.answers c.clock).map fun w =>
    let noticed := if w.noticedTimeout then [timeoutEvent l] else []
    let begun := [startingEvent l, constructedEvent, startedEvent] ++ noticed
    match w.result with
    | .error e => ⟨.error (.system e), begun, w.acts⟩
    | .ok (reaped, timedOut) =>
      let report := reportOn l c reaped timedOut
      ⟨.ok report, begun ++ [completedEvent report],
        w.acts ++ [.killedGroup, .joinedOutput, .joinedOutput]⟩

/-- Starts the program and watches it. -/
def run (host : Host) (l : Launch) : Option Run :=
  match host.start l with
  | .error e =>
    some ⟨.error (.spawn l.program e), [startingEvent l, constructedEvent], []⟩
  | .ok child => runChild l child

end HeapPressure.Harness
