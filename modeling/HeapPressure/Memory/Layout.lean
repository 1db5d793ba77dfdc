/-!
Layouts: a size and an alignment in bytes, as a request for memory states them.
A layout exists only where its size, rounded up to the alignment, still spans an object.
-/
namespace HeapPressure.Memory

/-- Whether `n` is a power of two. -/
def isPowerOfTwo (n : Nat) : Bool := n != 0 && n &&& (n - 1) == 0

/-- Objects span fewer bytes than this. -/
def objectBound : Nat := 0x8000000000000000

/-- The largest multiple of the alignment below `objectBound` is `objectBound - align`, so
`fits` says that the size still fits after rounding up. -/
structure Layout where
  size : Nat
  align : Nat
  align_isPowerOfTwo : isPowerOfTwo align = true
  fits : size + align ≤ objectBound
deriving DecidableEq

namespace Layout

def ofSizeAlign? (size align : Nat) : Option Layout :=
  if h : isPowerOfTwo align = true ∧ size + align ≤ objectBound then
    some ⟨size, align, h.1, h.2⟩
  else none

/-- The layout of the same alignment with another size. -/
def resize? (l : Layout) (size : Nat) : Option Layout := ofSizeAlign? size l.align

theorem ofSizeAlign?_size {size align : Nat} {l : Layout} (h : ofSizeAlign? size align = some l) :
    l.size = size := by
  unfold ofSizeAlign? at h
  split at h
  · cases h; rfl
  · cases h

theorem ofSizeAlign?_align {size align : Nat} {l : Layout} (h : ofSizeAlign? size align = some l) :
    l.align = align := by
  unfold ofSizeAlign? at h
  split at h
  · cases h; rfl
  · cases h

end Layout
end HeapPressure.Memory
