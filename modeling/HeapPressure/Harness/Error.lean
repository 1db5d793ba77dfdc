import HeapPressure.Settings.Toml

/-!
What can go wrong in the harness, with the texts of the errors and of their causes.
-/
namespace HeapPressure.Harness

/-- Failures of the system below, the usual ones by name. -/
inductive SystemError where
  | notFound
  | permissionDenied
  | notDirectory
  | isDirectory
  | nameTooLong
  | argumentTooLong
  | noChild
  | invalidUtf8
  | nulInFileName
  | nulInData
  | other (number : Nat) (reason : String)
deriving DecidableEq

/-- The system's number for a failure; what programs check themselves has none. -/
def SystemError.number? : SystemError → Option Nat
  | .notFound => some 2
  | .argumentTooLong => some 7
  | .noChild => some 10
  | .permissionDenied => some 13
  | .notDirectory => some 20
  | .isDirectory => some 21
  | .nameTooLong => some 36
  | .other number _ => some number
  | .invalidUtf8 | .nulInFileName | .nulInData => none

def SystemError.reason : SystemError → String
  | .notFound => "No such file or directory"
  | .permissionDenied => "Permission denied"
  | .notDirectory => "Not a directory"
  | .isDirectory => "Is a directory"
  | .nameTooLong => "File name too long"
  | .argumentTooLong => "Argument list too long"
  | .noChild => "No child processes"
  | .invalidUtf8 => "stream did not contain valid UTF-8"
  | .nulInFileName => "file name contained an unexpected NUL byte"
  | .nulInData => "nul byte found in provided data"
  | .other _ reason => reason

def SystemError.message (e : SystemError) : String :=
  match e.number? with
  | some n => e.reason ++ " (os error " ++ toString n ++ ")"
  | none => e.reason

inductive Error where
  | system (e : SystemError)
  | configRead (path : String) (e : SystemError)
  | configParse (e : Toml.Error) (text : String)
  | invalidConfig (i : Settings.Invalid)
  | fixtureNotFound (path : String)
  | spawn (path : String) (e : SystemError)
deriving DecidableEq

/-- The message of a document that could not be read; texts that are no documents have none. -/
def documentMessage (e : Toml.Error) (text : String) : String :=
  match e with
  | .badText => ""
  | .fault f => f.message text

def Error.message : Error → String
  | .system e => "IO error: " ++ e.message
  | .configRead path e => "Failed to read config " ++ path ++ ": " ++ e.message
  | .configParse e text => "Invalid config: " ++ documentMessage e text
  | .invalidConfig i => "Invalid config value: " ++ i.message
  | .fixtureNotFound path => "Fixture binary not found: " ++ path
  | .spawn path e => "Failed to spawn fixture " ++ path ++ ": " ++ e.message

/-- The error and what caused it, outermost first. -/
def Error.causes (e : Error) : List String :=
  e.message ::
    match e with
    | .system s => [s.message]
    | .configRead _ s => [s.message]
    | .configParse d text => [documentMessage d text]
    | .spawn _ s => [s.message]
    | _ => []

def Error.ofRead : Settings.ReadError → Error
  | .document e text => .configParse e text
  | .invalid i => .invalidConfig i

end HeapPressure.Harness
