import HeapPressure.Memory.Layout

/-!
The plan of an exhaustion: which chunks to ask for, and whether to write into them.
-/
namespace HeapPressure.Exhaust

def chunkAlign : Nat := 8

structure Plan where
  chunkSize : Nat := 1024 * 1024
  /-- Whether every chunk is filled once it is there. -/
  touchPages : Bool := false
  fillByte : UInt8 := 0xAA
deriving DecidableEq

inductive PlanError where
  | zeroChunkSize
  | badLayout
deriving DecidableEq

def PlanError.message : PlanError → String
  | .zeroChunkSize => "Chunk size must be non-zero"
  | .badLayout => "Invalid chunk layout: invalid parameters to Layout::from_size_align"

def Plan.layout (p : Plan) : Except PlanError Memory.Layout :=
  if p.chunkSize = 0 then .error .zeroChunkSize
  else
    match Memory.Layout.ofSizeAlign? p.chunkSize chunkAlign with
    | some l => .ok l
    | none => .error .badLayout

end HeapPressure.Exhaust
