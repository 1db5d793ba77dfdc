import HeapPressure.Log.Choices

/-!
Settings of the harness, their limits, and the overrides that a command line or an environment
lays over them.
-/
namespace HeapPressure

/-- The address-space limit in mebibytes, 0 for none, the timeout in seconds, and the path of
the fixture, by default the one beside the harness. -/
structure Settings where
  memoryLimitMb : UInt64 := 256
  timeoutSecs : UInt64 := 15
  fixture : Option String := none
  logging : Log.Choices := {}
deriving DecidableEq

namespace Settings

structure Overrides where
  memoryLimitMb : Option UInt64 := none
  timeoutSecs : Option UInt64 := none
  fixture : Option String := none
deriving DecidableEq

inductive Invalid where
  | zeroTimeout
  | limitTooLarge (mb : UInt64)
deriving DecidableEq

def Invalid.message : Invalid → String
  | .zeroTimeout => "timeout-secs must be greater than zero"
  | .limitTooLarge mb => "memory-limit-mb " ++ toString mb.toNat ++ " overflows a byte count"

def bytesPerMb : Nat := 1024 * 1024

/-- The limit in bytes; absent when there is none, or when it does not fit into 64 bits. -/
def memoryLimitBytes (s : Settings) : Option UInt64 :=
  if s.memoryLimitMb = 0 then none
  else
    let bytes := s.memoryLimitMb.toNat * bytesPerMb
    if bytes < 0x10000000000000000 then some bytes.toUInt64 else none

def timeoutMillis (s : Settings) : Nat := s.timeoutSecs.toNat * 1000

def validate (s : Settings) : Except Invalid Unit :=
  if s.timeoutSecs = 0 then .error .zeroTimeout
  else if s.memoryLimitBytes.isNone && s.memoryLimitMb != 0 then
    .error (.limitTooLarge s.memoryLimitMb)
  else .ok ()

/-- The settings themselves, when they are valid. -/
def validated (s : Settings) : Except Invalid Settings := s.validate.map fun _ => s

def override (o : Overrides) (s : Settings) : Settings :=
  { s with
    memoryLimitMb := o.memoryLimitMb.getD s.memoryLimitMb
    timeoutSecs := o.timeoutSecs.getD s.timeoutSecs
    fixture := o.fixture.or s.fixture }

def apply (o : Overrides) (s : Settings) : Except Invalid Settings := (s.override o).validated

/-- The file name of the default fixture. -/
def fixtureName : String := "alloc_exhaust"

def fieldNames : List String := ["memory-limit-mb", "timeout-secs", "fixture", "logging"]

end Settings
end HeapPressure
