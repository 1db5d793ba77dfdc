import HeapPressure.Log.Filter
import HeapPressure.Log.Choices

/-!
The log of a running program. It is set up at most once; what happens before is lost, and what
happens after is written if the filter lets it through.
-/
namespace HeapPressure.Log

/-- Where lines go: the error stream, or a writer of the program's own. -/
inductive Sink where
  | errorStream
  | writer
deriving DecidableEq

structure Setup where
  filter : Filter
  format : Format
  sink : Sink
deriving DecidableEq

structure LogLine where
  format : Format
  sink : Sink
  event : Event
deriving DecidableEq

structure Session where
  /-- The filter that the environment asks for. -/
  environment : Option String := none
  setup : Option Setup := none
  fixtureReady : Bool := false
  lines : List LogLine := []
deriving DecidableEq

inductive InitError where
  | alreadySet
deriving DecidableEq

def InitError.message : InitError → String
  | .alreadySet => "a global default trace dispatcher has already been set"

namespace Session

def init (sink : Sink) (component : String) (level : Level) (format : Format) (s : Session) :
    Except InitError Session :=
  match s.setup with
  | some _ => .error .alreadySet
  | none => .ok { s with setup := some ⟨Filter.choose s.environment component level, format, sink⟩ }

/-- Sets up the error stream from choices, with a level for when none was chosen. -/
def initChosen (component : String) (fallback : Level) (c : Choices) (s : Session) :
    Except InitError Session :=
  s.init .errorStream component (c.level.getD fallback) (c.format.getD .plaintext)

/-- The quiet log of a fixture. Only the first call does anything, and it does not mind a log
that is there already. -/
def initFixture (component : String) (s : Session) : Session :=
  if s.fixtureReady then s
  else
    let s := { s with fixtureReady := true }
    match s.init .errorStream component .warn .plaintext with
    | .ok s => s
    | .error _ => s

def emit (e : Event) (s : Session) : Session :=
  match s.setup with
  | some u =>
    if u.filter.enables e.level e.target e.fieldNames then
      { s with lines := s.lines ++ [⟨u.format, u.sink, e⟩] }
    else s
  | none => s

def emitAll (es : List Event) (s : Session) : Session := es.foldl (fun s e => s.emit e) s

end Session
end HeapPressure.Log
