import HeapPressure.Memory.Allocator

/-!
Stacks of allocators: budgets, gates and scales piled on the process heap, the outermost first.
-/
namespace HeapPressure.Memory

inductive Stack where
  | heap
  | capped (budget : Budget) (inner : Stack)
  | gated (gate : Gate) (inner : Stack)
  | scaled (mul div : Nat) (inner : Stack)
deriving DecidableEq

namespace Stack

/-- Passes a request down the stack, to the heap `h` at its foot. -/
def request (h : Heap) : Layout → Stack → Option Chunk × Stack
  | l, .heap => (h.allocate l, .heap)
  | l, .capped b inner =>
    if b.admits l then
      let (c, inner') := request h l inner
      (c, .capped (b.settle c) inner')
    else (none, .capped b inner)
  | l, .gated g inner =>
    if g.count.isOpen then
      let (c, inner') := request h l inner
      (c, .gated g.count inner')
    else (none, .gated g.count inner)
  | l, .scaled mul div inner =>
    match l.resize? (l.size * mul / div) with
    | some l' =>
      let (c, inner') := request h l' inner
      (c, .scaled mul div inner')
    | none => (none, .scaled mul div inner)

def allocator (h : Heap) : Allocator Stack := ⟨request h⟩

/-- What a stack shows of itself: its gates down to its first budget. -/
inductive Gauge where
  | budget (b : Budget)
  | gate (g : Gate)
deriving DecidableEq

def gauges : Stack → List Gauge
  | .heap => []
  | .capped b _ => [.budget b]
  | .gated g inner => .gate g :: inner.gauges
  | .scaled _ _ inner => inner.gauges

end Stack
end HeapPressure.Memory
