import HeapPressure.Memory.Stack

/-!
A workbench: an allocator and the chunks taken from it, each in its own slot.
Filling or dropping a chunk touches its slot and nothing else.
-/
namespace HeapPressure.Memory

structure Workbench (σ : Type) where
  allocator : σ
  slots : List (Option Chunk) := []
deriving DecidableEq

namespace Workbench

variable {σ : Type}

def chunk? (w : Workbench σ) (i : Nat) : Option Chunk := (w.slots[i]?).join

/-- One request; a chunk that is obtained goes into a new slot. -/
def allocate (a : Allocator σ) (l : Layout) (w : Workbench σ) : Option Chunk × Workbench σ :=
  match a.request l w.allocator with
  | (some c, s) => (some c, ⟨s, w.slots ++ [some c]⟩)
  | (none, s) => (none, { w with allocator := s })

def fill (i : Nat) (byte : UInt8) (w : Workbench σ) : Workbench σ :=
  { w with slots := w.slots.modify i (Option.map (Chunk.fill byte)) }

def drop (i : Nat) (w : Workbench σ) : Workbench σ :=
  { w with slots := w.slots.set i none }

end Workbench
end HeapPressure.Memory
