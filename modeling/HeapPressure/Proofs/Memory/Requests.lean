import HeapPressure.Memory.Stack

/-!
Allocators against each other and against the record of what they were asked.
-/
namespace HeapPressure.Memory

/-- A request and its answer. -/
abbrev Exchange : Type := Layout × Option Chunk

namespace Allocator

variable {σ τ υ : Type}

/-- Seen through `f`, the allocator `a` is the allocator `b`. -/
def Projects (f : σ → τ) (a : Allocator σ) (b : Allocator τ) : Prop :=
  ∀ l s, b.request l (f s) = ((a.request l s).1, f (a.request l s).2)

theorem projects_recorded (a : Allocator σ) : Projects Prod.fst a.recorded a := fun _ _ => rfl

theorem capped_request_of_admits {a : Allocator σ} {l : Layout} {b : Budget} {s : σ}
    (h : b.admits l = true) :
    a.capped.request l (b, s) =
      ((a.request l s).1, b.settle (a.request l s).1, (a.request l s).2) :=
  if_pos h

theorem capped_request_of_not_admits {a : Allocator σ} {l : Layout} {b : Budget} {s : σ}
    (h : ¬b.admits l = true) : a.capped.request l (b, s) = (none, b, s) :=
  if_neg h

theorem Projects.capped {f : σ → τ} {a : Allocator σ} {b : Allocator τ} (h : Projects f a b) :
    Projects (Prod.map id f) a.capped b.capped := by
  rintro l ⟨budget, s⟩
  by_cases hd : budget.admits l = true
  · rw [capped_request_of_admits hd, Prod.map_apply, id, capped_request_of_admits hd, h]
    rfl
  · rw [capped_request_of_not_admits hd, Prod.map_apply, id, capped_request_of_not_admits hd]

/-- No chunk is longer than asked for. -/
def Bounded (a : Allocator σ) : Prop := ∀ l s, ∀ c ∈ (a.request l s).1, c.len ≤ l.size

theorem Bounded.recorded {a : Allocator σ} (h : a.Bounded) : a.recorded.Bounded :=
  fun l s => h l s.1

theorem recorded_request (a : Allocator σ) (l : Layout) (s : σ × List Exchange) :
    (a.recorded.request l s).2.2 = (l, (a.recorded.request l s).1) :: s.2 := rfl

end Allocator
end HeapPressure.Memory
