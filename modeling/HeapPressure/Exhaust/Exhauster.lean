import HeapPressure.Exhaust.Plan
import HeapPressure.Exhaust.Handles
import HeapPressure.Memory.Stack
import HeapPressure.Log.Event

/-!
The exhauster asks an allocator for chunks of one size until it is refused, and keeps all of
them. It is running or stopped, and stops once.
-/
namespace HeapPressure.Exhaust

open Memory (Allocator Layout Chunk)

/-- Why the loop ended: no chunk, or no room to hold another. -/
inductive StopReason where
  | allocationExhausted
  | listExhausted
deriving DecidableEq

def StopReason.name : StopReason → String
  | .allocationExhausted => "AllocationExhausted"
  | .listExhausted => "ListExhausted"

inductive State where
  | running
  | stopped (reason : StopReason)
deriving DecidableEq

def State.reason? : State → Option StopReason
  | .running => none
  | .stopped reason => some reason

/-- What the exhauster meets in a step: the allocator, and whether the list of chunks could
grow if it had to. -/
structure Surroundings (σ : Type) where
  allocator : Allocator σ
  listGrows : Handles → Bool

/-- The process as it stands: a stack of allocators over the heap `h`. -/
def Surroundings.ofStack (h : Memory.Heap) (listGrows : Bool) : Surroundings Memory.Stack where
  allocator := Memory.Stack.allocator h
  listGrows _ := listGrows

structure Exhauster (σ : Type) where
  plan : Plan
  layout : Layout
  allocator : σ
  handles : Handles := {}
  requests : Nat := 0
  state : State := .running

structure Summary where
  chunks : Nat
  chunkSize : Nat
  bytesRetained : Nat
  requests : Nat
  stopReason : Option StopReason
deriving DecidableEq

/-- Numbers below it fit into a word. -/
def wordBound : Nat := 0x10000000000000000

/-- Arithmetic that does not fit into a word. It ends the process. -/
inductive Overflow where
  | product
deriving DecidableEq

def Overflow.message : Overflow → String
  | .product => "attempt to multiply with overflow"

/-- The product of two words, if it is a word. -/
def checkedMul (a b : Nat) : Except Overflow Nat :=
  if a * b < wordBound then .ok (a * b) else .error .product

namespace Exhauster

variable {σ : Type}

def start (plan : Plan) (allocator : σ) : Except PlanError (Exhauster σ) :=
  plan.layout.map fun layout => { plan, layout, allocator }

def isStopped (e : Exhauster σ) : Bool := e.state != .running

/-- The chunks obtained so far, in the order of the requests. -/
def retained (e : Exhauster σ) : Array Chunk := e.handles.chunks

/-- A chunk as it is kept. -/
def touch (plan : Plan) (c : Chunk) : Chunk :=
  if plan.touchPages then c.fill plan.fillByte else c

/-- One turn of the loop: room in the list, then a request. Once stopped nothing changes. -/
def step (s : Surroundings σ) (e : Exhauster σ) : Exhauster σ :=
  if e.isStopped then e
  else
    match hr : e.handles.reserve (s.listGrows e.handles) with
    | none => { e with state := .stopped .listExhausted }
    | some handles =>
      match s.allocator.request e.layout e.allocator with
      | (some c, allocator) =>
        { e with
          allocator
          handles := handles.push (Handles.hasRoom_of_reserve hr) (touch e.plan c)
          requests := e.requests + 1 }
      | (none, allocator) =>
        { e with
          allocator
          handles
          requests := e.requests + 1
          state := .stopped .allocationExhausted }

def steps (s : Surroundings σ) : Nat → Exhauster σ → Exhauster σ
  | 0, e => e
  | n + 1, e => steps s n (e.step s)

/-- At most `n` steps, and none after the stop. -/
def runWithin (s : Surroundings σ) : Nat → Exhauster σ → Exhauster σ
  | 0, e => e
  | n + 1, e =>
    let e := e.step s
    if e.isStopped then e else runWithin s n e

/-- Requests are counted in 64 bits, so there are fewer than this. -/
def requestBound : Nat := 0x10000000000000000

/-- Steps until the exhauster stops. -/
def run (s : Surroundings σ) (e : Exhauster σ) : Exhauster σ := e.runWithin s requestBound

/-- What a run and a report tell, if the bytes can be counted. They are counted by the size asked
for, whatever the lengths of the chunks. -/
def report (e : Exhauster σ) : Except Overflow Summary :=
  (checkedMul e.retained.size e.layout.size).map fun bytesRetained =>
    { chunks := e.retained.size
      chunkSize := e.layout.size
      bytesRetained
      requests := e.requests
      stopReason := e.state.reason? }

end Exhauster

/-- The target of the exhauster's own log events. -/
def logTarget : String := "exhaust_core::exhauster"

def startingEvent {σ : Type} (e : Exhauster σ) : Log.Event where
  level := .debug
  target := logTarget
  message := "starting allocation loop"
  fields := [("chunk_size", .count e.layout.size), ("touch_pages", .flag e.plan.touchPages)]

def stoppedEvent (s : Summary) : Log.Event where
  level := .debug
  target := logTarget
  message := "allocation loop stopped"
  fields := [("chunks", .count s.chunks), ("bytes_retained", .count s.bytesRetained),
    ("stop_reason", .text (match s.stopReason with
      | some reason => "Some(" ++ reason.name ++ ")"
      | none => "None"))]

/-- A run with what it returns and the events it logs, the last of them when it has ended and there
is something to return. -/
structure Ran (σ : Type) where
  exhauster : Exhauster σ
  report : Except Overflow Summary
  events : List Log.Event

def Exhauster.runLogged {σ : Type} (s : Surroundings σ) (e : Exhauster σ) : Ran σ :=
  let e' := e.run s
  { exhauster := e'
    report := e'.report
    events :=
      startingEvent e ::
        if e'.isStopped then (e'.report.toOption.map stoppedEvent).toList else [] }

end HeapPressure.Exhaust
