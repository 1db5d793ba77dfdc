import HeapPressure.Memory.Layout

/-!
Chunks of memory. A chunk has at least one byte; its bytes are unspecified until it is
filled, and then all of them are the filler.
-/
namespace HeapPressure.Memory

structure Chunk where
  layout : Layout
  size_pos : 0 < layout.size
  filler : Option UInt8 := none
deriving DecidableEq

namespace Chunk

def len (c : Chunk) : Nat := c.layout.size

def isEmpty (c : Chunk) : Bool := c.len == 0

def fill (byte : UInt8) (c : Chunk) : Chunk := { c with filler := some byte }

/-- The bytes of a filled chunk. -/
def contents (c : Chunk) : Option (List UInt8) := c.filler.map (List.replicate c.len)

def byteAt? (c : Chunk) (i : Nat) : Option UInt8 := if i < c.len then c.filler else none

theorem len_pos (c : Chunk) : 0 < c.len := c.size_pos

theorem isEmpty_eq_false (c : Chunk) : c.isEmpty = false := by
  have h := c.len_pos
  simp [isEmpty]
  omega

theorem len_fill (byte : UInt8) (c : Chunk) : (c.fill byte).len = c.len := rfl

theorem contents_fill (byte : UInt8) (c : Chunk) :
    (c.fill byte).contents = some (List.replicate c.len byte) := rfl

end Chunk

/-- What the process heap does with the next request. -/
structure Heap where
  serves : Layout → Bool

namespace Heap

/-- How many bytes of addresses there are. -/
def reach : Nat := 0x800000000000

/-- Room for an aligned block is looked for with its alignment to spare. -/
def roomy : Heap := ⟨fun l => l.size + l.align < reach⟩

def exhausted : Heap := ⟨fun _ => false⟩

/-- A request for no bytes is refused without asking. -/
def allocate (h : Heap) (l : Layout) : Option Chunk :=
  if pos : 0 < l.size then
    if h.serves l then some ⟨l, pos, none⟩ else none
  else none

theorem allocate_len {h : Heap} {l : Layout} {c : Chunk} (hc : h.allocate l = some c) :
    c.len = l.size := by
  unfold allocate at hc
  split at hc
  · split at hc
    · cases hc; rfl
    · cases hc
  · cases hc

end Heap
end HeapPressure.Memory
