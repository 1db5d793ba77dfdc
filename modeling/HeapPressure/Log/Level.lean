import HeapPressure.Document.Problem

/-!
Severity levels of log events, and the two layouts of a log line.
-/
namespace HeapPressure.Log

inductive Level where
  | error
  | warn
  | info
  | debug
  | trace
deriving DecidableEq

inductive Format where
  | plaintext
  | json
deriving DecidableEq

/-- Lower case, over the letters a to z alone. -/
def lowered (s : String) : String := s.map Char.toLower

namespace Level

def all : List Level := [.error, .warn, .info, .debug, .trace]

/-- The name in settings and on the command line. -/
def name : Level → String
  | .error => "error"
  | .warn => "warn"
  | .info => "info"
  | .debug => "debug"
  | .trace => "trace"

/-- The name in log lines and filters. -/
def label : Level → String
  | .error => "ERROR"
  | .warn => "WARN"
  | .info => "INFO"
  | .debug => "DEBUG"
  | .trace => "TRACE"

/-- The more severe, the smaller. -/
def rank : Level → Nat
  | .error => 1
  | .warn => 2
  | .info => 3
  | .debug => 4
  | .trace => 5

def names : List String := all.map name

def ofName? (s : String) : Option Level := all.find? fun l => l.name == s

def ofNameIgnoringCase? (s : String) : Option Level := ofName? (lowered s)

theorem ofName?_name (l : Level) : ofName? l.name = some l := by
  cases l <;> decide

end Level

namespace Format

def all : List Format := [.plaintext, .json]

def name : Format → String
  | .plaintext => "plaintext"
  | .json => "json"

def names : List String := all.map name

def ofName? (s : String) : Option Format := all.find? fun f => f.name == s

def ofNameIgnoringCase? (s : String) : Option Format := ofName? (lowered s)

theorem ofName?_name (f : Format) : ofName? f.name = some f := by
  cases f <;> decide

end Format

/-- The message for a word that names no level or format. -/
def invalidVariant (word : String) : String := "invalid variant: " ++ word

end HeapPressure.Log
