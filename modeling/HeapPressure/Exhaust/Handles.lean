import HeapPressure.Memory.Chunk

/-!
The list of chunks held, with the room it has. Room is made before a chunk is asked for, so
that adding a chunk never needs memory.
-/
namespace HeapPressure.Exhaust

open Memory (Chunk)

structure Handles where
  chunks : Array Chunk := #[]
  capacity : Nat := 0
  size_le : chunks.size ≤ capacity := by decide

namespace Handles

def hasRoom (h : Handles) : Bool := h.chunks.size < h.capacity

/-- The room after growing: twice as much, and four at least. -/
def grownCapacity (capacity : Nat) : Nat := max 4 (2 * capacity)

/-- Makes room for one more chunk. The heap is asked only when there is none, and `granted` is
its answer. -/
def reserve (granted : Bool) (h : Handles) : Option Handles :=
  if h.hasRoom then some h
  else if granted then
    some ⟨h.chunks, grownCapacity h.capacity, by
      have := h.size_le
      unfold grownCapacity
      omega⟩
  else none

theorem hasRoom_of_reserve {granted : Bool} {h h' : Handles} (hr : h.reserve granted = some h') :
    h'.chunks.size < h'.capacity := by
  unfold reserve at hr
  split at hr
  · rename_i hroom
    cases hr
    simpa [hasRoom] using hroom
  · split at hr
    · cases hr
      have := h.size_le
      simp only [grownCapacity]
      omega
    · cases hr

theorem chunks_of_reserve {granted : Bool} {h h' : Handles} (hr : h.reserve granted = some h') :
    h'.chunks = h.chunks := by
  unfold reserve at hr
  split at hr
  · cases hr; rfl
  · split at hr
    · cases hr; rfl
    · cases hr

/-- Adds a chunk where there is room. -/
def push (h : Handles) (room : h.chunks.size < h.capacity) (c : Chunk) : Handles :=
  ⟨h.chunks.push c, h.capacity, by simp only [Array.size_push]; omega⟩

end Handles
end HeapPressure.Exhaust
