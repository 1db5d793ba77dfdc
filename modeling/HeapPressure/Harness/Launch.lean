import HeapPressure.Harness.Error
import HeapPressure.Text.Quoted

/-!
Launches: which program to run, with which arguments, under which limits.
-/
namespace HeapPressure.Harness

structure Launch where
  program : String
  args : List String := []
  memoryLimitBytes : Option UInt64 := none
  timeoutMillis : Nat
deriving DecidableEq

/-- Seconds without trailing zeros from one second on, whole milliseconds below. -/
def durationText (millis : Nat) : String :=
  if millis = 0 then "0ns"
  else if millis < 1000 then toString millis ++ "ms"
  else
    let digits := (Nat.toDigits 10 (millis % 1000 + 1000)).drop 1
    let kept := (digits.reverse.dropWhile (· == '0')).reverse
    toString (millis / 1000) ++ (if kept.isEmpty then "" else "." ++ String.ofList kept) ++ "s"

def optionText {α : Type} (describe : α → String) : Option α → String
  | some a => "Some(" ++ describe a ++ ")"
  | none => "None"

/-- The variable that names a log filter. -/
def filterVariable : String := "RUST_LOG"

/-- What a child finds in its environment: all but the log filter, so that it stays quiet. -/
def childEnvironment (environment : List (String × String)) : List (String × String) :=
  environment.filter fun v => v.1 != filterVariable

namespace Launch

def describe (l : Launch) : String :=
  "FixtureRunner \x7b program: " ++ Text.quoted l.program
    ++ ", args: [" ++ ", ".intercalate (l.args.map Text.quoted)
    ++ "], memory_limit_bytes: " ++ optionText (fun b => toString b.toNat) l.memoryLimitBytes
    ++ ", timeout: " ++ durationText l.timeoutMillis ++ " \x7d"

end Launch
end HeapPressure.Harness
