import HeapPressure.Json.Writer

/-!
Resource use of an ended process. Counts are 64 bits wide and stop at their upper end.
-/
namespace HeapPressure

/-- What the system reports: resident kibibytes, and seconds with microseconds spent in the
program and in the system on its behalf. -/
structure ResourceCounts where
  maxResidentKiB : Int64 := 0
  userSeconds : Int64 := 0
  userMicros : Int64 := 0
  systemSeconds : Int64 := 0
  systemMicros : Int64 := 0
deriving DecidableEq

structure Usage where
  peakMemoryBytes : UInt64 := 0
  cpuTimeMicros : UInt64 := 0
deriving DecidableEq

/-- The largest 64-bit count. -/
def maxCount : Nat := 0xFFFFFFFFFFFFFFFF

def saturate (n : Nat) : UInt64 := (min n maxCount).toUInt64

/-- A negative number counts as nothing. -/
def positivePart (n : Int64) : UInt64 := n.toInt.toNat.toUInt64

def saturatingAdd (a b : UInt64) : UInt64 := saturate (a.toNat + b.toNat)

def saturatingMul (a b : UInt64) : UInt64 := saturate (a.toNat * b.toNat)

def microsOf (seconds micros : Int64) : UInt64 :=
  saturatingAdd (saturatingMul (positivePart seconds) 1000000) (positivePart micros)

def Usage.ofCounts (r : ResourceCounts) : Usage where
  peakMemoryBytes := saturatingMul (positivePart r.maxResidentKiB) 1024
  cpuTimeMicros :=
    saturatingAdd (microsOf r.userSeconds r.userMicros) (microsOf r.systemSeconds r.systemMicros)

def Usage.document (u : Usage) : Json.Document :=
  .object [("peak_memory_bytes", .integer u.peakMemoryBytes.toNat),
    ("cpu_time_us", .integer u.cpuTimeMicros.toNat)]

end HeapPressure
