/-!
Scanning command lines of long options. An option that takes a value takes it behind an equals
sign or from the next argument; its value is looked at when the next option begins, or at the
end. Each option may be given once.
-/
namespace HeapPressure.CommandLine

inductive UsageError where
  | invalidValue
  | unknownArgument
  | conflict
  | unneededValue
  | help
deriving DecidableEq

/-- Asking for help is no failure. -/
def UsageError.exitCode : UsageError → Nat
  | .help => 0
  | _ => 2

inductive Kind where
  | flag
  | help
  | value (accepts : String → Bool)

structure OptionSpec where
  name : String
  kind : Kind

/-- An option waiting for its value, or with a value that is not looked at yet. -/
structure Pending where
  name : String
  accepts : String → Bool
  value : Option String := none

structure Scan where
  /-- The options given so far with their values, a flag's being empty. -/
  given : List (String × String) := []
  pending : Option Pending := none
  /-- Behind `--` nothing is an option. -/
  trailing : Bool := false

namespace Scan

def record (name value : String) (s : Scan) : Except UsageError Scan :=
  if s.given.any fun g => g.1 == name then .error .conflict
  else .ok { s with given := s.given ++ [(name, value)] }

private def accept (name : String) (accepts : String → Bool) (value : String) (s : Scan) :
    Except UsageError Scan := do
  let s ← s.record name value
  if accepts value then pure s else .error .invalidValue

/-- Settles the option that is pending. -/
def settle (s : Scan) : Except UsageError Scan :=
  match s.pending with
  | none => .ok s
  | some p =>
    match p.value with
    | none => .error .invalidValue
    | some v => accept p.name p.accepts v { s with pending := none }

/-- Whether the next argument is taken for a value. -/
def waits (s : Scan) : Bool :=
  match s.pending with
  | some p => p.value.isNone
  | none => false

/-- The name in front of an equals sign, and the value behind it if there is one. -/
def splitValue (cs : List Char) : String × Option String :=
  let name := cs.takeWhile (· != '=')
  match cs.drop name.length with
  | [] => (String.ofList name, none)
  | _ :: v => (String.ofList name, some (String.ofList v))

def longOption (options : List OptionSpec) (cs : List Char) (s : Scan) : Except UsageError Scan :=
  let (name, attached) := splitValue cs
  match options.find? (fun o => o.name == name), attached with
  | none, _ => .error .unknownArgument
  | some ⟨_, .help⟩, none => do
    let _ ← s.settle
    .error .help
  | some ⟨_, .help⟩, some _ => .error .unneededValue
  | some ⟨_, .flag⟩, none => do (← s.settle).record name ""
  | some ⟨_, .flag⟩, some _ => .error .unneededValue
  | some ⟨_, .value accepts⟩, some v => do accept name accepts v (← s.settle)
  | some ⟨_, .value accepts⟩, none => do
    pure { (← s.settle) with pending := some ⟨name, accepts, none⟩ }

def argument (options : List OptionSpec) (s : Scan) (arg : String) : Except UsageError Scan :=
  if s.trailing then .error .unknownArgument
  else
    match arg.toList with
    | ['-', '-'] => .ok { s with trailing := true }
    | '-' :: '-' :: cs => s.longOption options cs
    | '-' :: 'h' :: _ => do
      let _ ← s.settle
      .error .help
    | '-' :: _ :: _ => .error .unknownArgument
    | _ =>
      match s.pending with
      | some p =>
        if p.value.isNone then .ok { s with pending := some { p with value := some arg } }
        else .error .unknownArgument
      | none => .error .unknownArgument

end Scan

/-- The options given on a command line, with their values. -/
def scan (options : List OptionSpec) (args : List String) :
    Except UsageError (List (String × String)) := do
  let s ← args.foldlM (Scan.argument options) {}
  pure (← s.settle).given

end HeapPressure.CommandLine
