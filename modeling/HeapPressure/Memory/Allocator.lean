import HeapPressure.Memory.Chunk

/-!
Allocators: state machines that answer each request for memory with a chunk or a refusal.
A budget, a gate or a scale in front of an allocator gives another one.
-/
namespace HeapPressure.Memory

structure Allocator (σ : Type) where
  request : Layout → σ → Option Chunk × σ

/-- A number of bytes to hand out, and how many went out. Nothing is ever given back. -/
structure Budget where
  cap : Nat
  allocated : Nat := 0
deriving DecidableEq

namespace Budget

def remaining (b : Budget) : Nat := b.cap - b.allocated

def admits (b : Budget) (l : Layout) : Bool := l.size ≤ b.remaining

/-- What was handed out is charged by its own length, a refusal costs nothing. -/
def settle (b : Budget) : Option Chunk → Budget
  | some c => { b with allocated := b.allocated + c.len }
  | none => b

theorem settle_cap (b : Budget) (c : Option Chunk) : (b.settle c).cap = b.cap := by
  cases c <;> rfl

theorem settle_allocated_some (b : Budget) (c : Chunk) :
    (b.settle (some c)).allocated = b.allocated + c.len := rfl

end Budget

/-- Which of the numbered requests, the first being 1, a gate lets through. -/
inductive Gate.Rule where
  | upTo (last : Nat)
  | allBut (refused : List Nat)
deriving DecidableEq

def Gate.Rule.admits : Gate.Rule → Nat → Bool
  | .upTo last, call => call ≤ last
  | .allBut refused, call => !refused.contains call

/-- Counts the requests and lets through those that its rule names. -/
structure Gate where
  rule : Gate.Rule
  calls : Nat := 0
deriving DecidableEq

def Gate.count (g : Gate) : Gate := { g with calls := g.calls + 1 }

def Gate.isOpen (g : Gate) : Bool := g.rule.admits g.calls

namespace Allocator

/-- The process heap itself. -/
def ofHeap (h : Heap) : Allocator Unit where
  request l s := (h.allocate l, s)

/-- The allocator behind a budget: a request beyond what remains never reaches it. -/
def capped {σ : Type} (a : Allocator σ) : Allocator (Budget × σ) where
  request l s :=
    if s.1.admits l then
      let (c, t) := a.request l s.2
      (c, s.1.settle c, t)
    else (none, s)

/-- The allocator behind a gate. -/
def gated {σ : Type} (a : Allocator σ) : Allocator (Gate × σ) where
  request l s :=
    let g := s.1.count
    if g.isOpen then
      let (c, t) := a.request l s.2
      (c, g, t)
    else (none, g, s.2)

/-- Answers with a chunk of `mul / div` times the size asked for. -/
def scaled {σ : Type} (a : Allocator σ) (mul div : Nat) : Allocator σ where
  request l s :=
    match l.resize? (l.size * mul / div) with
    | some l' => a.request l' s
    | none => (none, s)

/-- The allocator together with a record of what it was asked and what it answered, the
latest first. -/
def recorded {σ : Type} (a : Allocator σ) : Allocator (σ × List (Layout × Option Chunk)) where
  request l s :=
    let (c, t) := a.request l s.1
    (c, t, (l, c) :: s.2)

/-- Answers the requests one after another. -/
def requestAll {σ : Type} (a : Allocator σ) : List Layout → σ → List (Option Chunk) × σ
  | [], s => ([], s)
  | l :: ls, s =>
    let (c, t) := a.request l s
    let (cs, u) := a.requestAll ls t
    (c :: cs, u)

end Allocator
end HeapPressure.Memory
