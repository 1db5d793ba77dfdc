import HeapPressure.Memory.Workbench
import HeapPressure.Proofs.Memory.Requests

/-!
A budget at work: whatever a caller asks for, fills and drops, the budget has charged the chunks
that went out, to the byte, and never more than it holds.
-/
namespace HeapPressure.Memory

/-- The length of all the chunks among the answers. -/
def bytesIn : List (Option Chunk) → Nat
  | [] => 0
  | none :: cs => bytesIn cs
  | some c :: cs => c.len + bytesIn cs

theorem bytesIn_append (cs ds : List (Option Chunk)) :
    bytesIn (cs ++ ds) = bytesIn cs + bytesIn ds := by
  induction cs with
  | nil => simp [bytesIn]
  | cons c cs ih =>
    cases c with
    | none => exact ih
    | some c =>
      simp only [List.cons_append, bytesIn, ih]
      omega

theorem Budget.settle_allocated (b : Budget) (c : Option Chunk) :
    (b.settle c).allocated = b.allocated + bytesIn [c] := by
  cases c <;> rfl

theorem Budget.admits_iff {b : Budget} {l : Layout} : b.admits l = true ↔ l.size ≤ b.remaining := by
  simp [admits]

namespace Allocator

variable {σ : Type}

/-- What a budget lets through fits into what remains, and so does the chunk that comes back. -/
theorem capped_request_charges {a : Allocator σ} (ha : a.Bounded) (l : Layout) (b : Budget) (s : σ)
    (hb : b.allocated ≤ b.cap) :
    (a.capped.request l (b, s)).2.1.cap = b.cap ∧
    (a.capped.request l (b, s)).2.1.allocated =
      b.allocated + bytesIn [(a.capped.request l (b, s)).1] ∧
    (a.capped.request l (b, s)).2.1.allocated ≤ b.cap := by
  by_cases hd : b.admits l = true
  · rw [capped_request_of_admits hd]
    refine ⟨b.settle_cap _, b.settle_allocated _, ?_⟩
    change (b.settle (a.request l s).1).allocated ≤ b.cap
    have hl := ha l s
    cases hc : (a.request l s).1 with
    | none => exact hb
    | some c =>
      have hlen : c.len ≤ l.size := hl c hc
      have hsize := Budget.admits_iff.mp hd
      rw [Budget.settle_allocated_some]
      unfold Budget.remaining at hsize
      omega
  · rw [capped_request_of_not_admits hd]
    exact ⟨rfl, rfl, hb⟩

/-- The allocator behind a budget hears of the requests that fit into what remains, and of no
others. -/
theorem capped_request_record (a : Allocator σ) (l : Layout) (b : Budget)
    (s : σ × List Exchange) :
    (a.recorded.capped.request l (b, s)).2.2.2 =
      if l.size ≤ b.remaining then (l, (a.recorded.capped.request l (b, s)).1) :: s.2
      else s.2 := by
  by_cases hd : b.admits l = true
  · rw [capped_request_of_admits hd, if_pos (Budget.admits_iff.mp hd)]
    rfl
  · rw [capped_request_of_not_admits hd, if_neg (mt Budget.admits_iff.mpr hd)]

theorem capped_request_refused {a : Allocator σ} {l : Layout} {b : Budget} {s : σ}
    (h : (a.capped.request l (b, s)).1 = none) : (a.capped.request l (b, s)).2.1 = b := by
  by_cases hd : b.admits l = true
  · rw [capped_request_of_admits hd] at h ⊢
    change b.settle (a.request l s).1 = b
    rw [show (a.request l s).1 = none from h]
    rfl
  · rw [capped_request_of_not_admits hd]

theorem bounded_ofHeap (h : Heap) : (ofHeap h).Bounded :=
  fun _ _ _ hc => Nat.le_of_eq (Heap.allocate_len hc)

theorem Bounded.scaled {a : Allocator σ} (h : a.Bounded) {mul div : Nat} (hm : mul ≤ div) :
    (a.scaled mul div).Bounded := by
  intro l s c hc
  simp only [Allocator.scaled] at hc
  split at hc
  · next l' hl =>
    have hsize := Layout.ofSizeAlign?_size hl
    have hle : l.size * mul / div ≤ l.size :=
      Nat.div_le_of_le_mul (by rw [Nat.mul_comm]; exact Nat.mul_le_mul_right _ hm)
    exact Nat.le_trans (h l' s c hc) (hsize ▸ hle)
  · simp at hc

end Allocator

namespace Workbench

variable {σ τ : Type}

/-- What a caller does at a workbench. -/
inductive Act where
  | request (l : Layout)
  | fill (i : Nat) (byte : UInt8)
  | drop (i : Nat)

/-- The slot whose chunk is filled or dropped. -/
def Act.slot? : Act → Option Nat
  | .request _ => none
  | .fill i _ => some i
  | .drop i => some i

/-- The answer, if the act is a request. -/
def perform (a : Allocator σ) : Act → Workbench σ → List (Option Chunk) × Workbench σ
  | .request l, w => ([(w.allocate a l).1], (w.allocate a l).2)
  | .fill i byte, w => ([], w.fill i byte)
  | .drop i, w => ([], w.drop i)

/-- Acts in turn, and the answers to the requests among them. -/
def performAll (a : Allocator σ) : List Act → Workbench σ → List (Option Chunk) × Workbench σ
  | [], w => ([], w)
  | x :: xs, w =>
    let r := perform a x w
    let rs := performAll a xs r.2
    (r.1 ++ rs.1, rs.2)

theorem allocate_answer (a : Allocator σ) (l : Layout) (w : Workbench σ) :
    (w.allocate a l).1 = (a.request l w.allocator).1 := by
  unfold allocate
  split <;> next h => rw [h]

theorem allocate_allocator (a : Allocator σ) (l : Layout) (w : Workbench σ) :
    (w.allocate a l).2.allocator = (a.request l w.allocator).2 := by
  unfold allocate
  split <;> next h => rw [h]

theorem allocate_slots (a : Allocator σ) (l : Layout) (w : Workbench σ) :
    (w.allocate a l).2.slots = w.slots ++ ((a.request l w.allocator).1.map some).toList := by
  unfold allocate
  split <;> next h => simp [h]

/-- The acts so far kept the budget: it has charged what went out since it stood at `b`, and no
more than its cap. -/
theorem performAll_charges {a : Allocator σ} (ha : a.Bounded) (xs : List Act)
    (w : Workbench (Budget × σ)) (hw : w.allocator.1.allocated ≤ w.allocator.1.cap) :
    (performAll a.capped xs w).2.allocator.1.cap = w.allocator.1.cap ∧
    (performAll a.capped xs w).2.allocator.1.allocated =
      w.allocator.1.allocated + bytesIn (performAll a.capped xs w).1 ∧
    (performAll a.capped xs w).2.allocator.1.allocated ≤ w.allocator.1.cap := by
  induction xs generalizing w with
  | nil => exact ⟨rfl, rfl, hw⟩
  | cons x xs ih =>
    have hx : (perform a.capped x w).2.allocator.1.cap = w.allocator.1.cap ∧
        (perform a.capped x w).2.allocator.1.allocated =
          w.allocator.1.allocated + bytesIn (perform a.capped x w).1 ∧
        (perform a.capped x w).2.allocator.1.allocated ≤ w.allocator.1.cap := by
      cases x with
      | request l =>
        simp only [perform, allocate_answer, allocate_allocator]
        exact Allocator.capped_request_charges ha l _ _ hw
      | fill i byte => exact ⟨rfl, rfl, hw⟩
      | drop i => exact ⟨rfl, rfl, hw⟩
    obtain ⟨hcap, hsum, hle⟩ := hx
    obtain ⟨hcap', hsum', hle'⟩ := ih (perform a.capped x w).2 (hcap ▸ hle)
    refine ⟨hcap'.trans hcap, ?_, hcap ▸ hle'⟩
    simp only [performAll, bytesIn_append]
    omega

/-- Two workbenches that differ at most in what lies in slot `i`. -/
structure AgreeBut (i : Nat) (w v : Workbench σ) : Prop where
  allocator : w.allocator = v.allocator
  length : w.slots.length = v.slots.length
  slots : ∀ j, j ≠ i → w.slots[j]? = v.slots[j]?

theorem AgreeBut.perform {i : Nat} {w v : Workbench σ} (h : AgreeBut i w v) (a : Allocator σ)
    (x : Act) : (perform a x w).1 = (perform a x v).1 ∧
      AgreeBut i (perform a x w).2 (perform a x v).2 := by
  cases x with
  | request l =>
    refine ⟨?_, ?_, ?_, fun j hj => ?_⟩
    · simp only [Workbench.perform, allocate_answer, h.allocator]
    · simp only [Workbench.perform, allocate_allocator, h.allocator]
    · simp only [Workbench.perform, allocate_slots, List.length_append, h.allocator, h.length]
    · simp only [Workbench.perform, allocate_slots, List.getElem?_append, h.allocator, h.length,
        h.slots j hj]
  | fill k byte =>
    refine ⟨rfl, h.allocator, ?_, fun j hj => ?_⟩
    · simp only [Workbench.perform, fill, List.length_modify, h.length]
    · simp only [Workbench.perform, fill, List.getElem?_modify, h.slots j hj]
  | drop k =>
    refine ⟨rfl, h.allocator, ?_, fun j hj => ?_⟩
    · simp only [Workbench.perform, drop, List.length_set, h.length]
    · simp only [Workbench.perform, drop, List.getElem?_set, h.length, h.slots j hj]

theorem AgreeBut.performAll {i : Nat} {w v : Workbench σ} (h : AgreeBut i w v) (a : Allocator σ)
    (xs : List Act) : (performAll a xs w).1 = (performAll a xs v).1 ∧
      AgreeBut i (performAll a xs w).2 (performAll a xs v).2 := by
  induction xs generalizing w v with
  | nil => exact ⟨rfl, h⟩
  | cons x xs ih =>
    obtain ⟨hc, hx⟩ := h.perform a x
    obtain ⟨hcs, hxs⟩ := ih hx
    refine ⟨?_, hxs⟩
    simp only [Workbench.performAll, hc, hcs]

theorem AgreeBut.chunk? {i j : Nat} {w v : Workbench σ} (h : AgreeBut i w v) (hj : j ≠ i) :
    w.chunk? j = v.chunk? j := congrArg Option.join (h.slots j hj)

/-- To fill or drop a chunk touches its own slot alone. -/
theorem agreeBut_perform {a : Allocator σ} {x : Act} {i : Nat} (hx : x.slot? = some i)
    (w : Workbench σ) : AgreeBut i (perform a x w).2 w := by
  cases x with
  | request l => cases hx
  | fill k byte =>
    cases hx
    refine ⟨rfl, List.length_modify .., fun j hj => ?_⟩
    simp only [perform, fill, List.getElem?_modify, if_neg hj.symm, id_map']
  | drop k =>
    cases hx
    exact ⟨rfl, List.length_set, fun j hj => List.getElem?_set_ne hj.symm⟩

/-- The workbench with its allocator's state seen through `f`. -/
def mapAllocator (f : σ → τ) (w : Workbench σ) : Workbench τ := ⟨f w.allocator, w.slots⟩

theorem perform_mapAllocator {f : σ → τ} {a : Allocator σ} {b : Allocator τ}
    (hf : Allocator.Projects f a b) (x : Act) (w : Workbench σ) :
    perform b x (w.mapAllocator f) =
      ((perform a x w).1, (perform a x w).2.mapAllocator f) := by
  cases x with
  | request l =>
    have hr : b.request l (w.mapAllocator f).allocator = _ := hf l w.allocator
    simp only [perform, allocate, hr]
    cases a.request l w.allocator with
    | mk c t => cases c <;> rfl
  | fill i byte => rfl
  | drop i => rfl

theorem performAll_mapAllocator {f : σ → τ} {a : Allocator σ} {b : Allocator τ}
    (hf : Allocator.Projects f a b) (xs : List Act) (w : Workbench σ) :
    performAll b xs (w.mapAllocator f) =
      ((performAll a xs w).1, (performAll a xs w).2.mapAllocator f) := by
  induction xs generalizing w with
  | nil => rfl
  | cons x xs ih => simp only [performAll, perform_mapAllocator hf, ih]

/-- Whatever is done at a fresh workbench behind a budget of `cap` bytes: the budget has charged
the length of all chunks that went out, it is never overdrawn, what it lets through is what fits,
a refusal costs nothing, and to fill or drop a chunk is seen in its own slot alone. The record of
the requests that went through changes nothing. -/
theorem performAll_budget (a : Allocator σ) (ha : a.Bounded) (cap : Nat) (s : σ)
    (xs : List Act) :
    let a' := a.recorded.capped
    let r := performAll a' xs ⟨(⟨cap, 0⟩, s, []), []⟩
    let b := r.2.allocator.1
    (b.cap = cap ∧ b.allocated = bytesIn r.1 ∧ b.allocated ≤ b.cap ∧
      b.remaining = cap - bytesIn r.1) ∧
    (∀ l, let n := r.2.allocate a' l
      n.2.allocator.2.2 =
        (if l.size ≤ b.remaining then (l, n.1) :: r.2.allocator.2.2 else r.2.allocator.2.2) ∧
      (n.1 = none → n.2.allocator.1 = b)) ∧
    (∀ x i, x.slot? = some i → ∀ ys,
      let u := performAll a' ys (perform a' x r.2).2
      let v := performAll a' ys r.2
      u.1 = v.1 ∧ u.2.allocator = v.2.allocator ∧ ∀ j ≠ i, u.2.chunk? j = v.2.chunk? j) ∧
    performAll a.capped xs ⟨(⟨cap, 0⟩, s), []⟩ =
      (r.1, r.2.mapAllocator (Prod.map id Prod.fst)) := by
  intro a' r b
  have hr : b.cap = cap ∧ b.allocated = 0 + bytesIn r.1 ∧ b.allocated ≤ cap :=
    performAll_charges ha.recorded xs ⟨(⟨cap, 0⟩, s, []), []⟩ (Nat.zero_le _)
  obtain ⟨hcap, hsum, hle⟩ := hr
  rw [Nat.zero_add] at hsum
  refine ⟨⟨hcap, hsum, hcap ▸ hle, ?_⟩, fun l => ⟨?_, fun hn => ?_⟩, fun x i hx ys => ?_, ?_⟩
  · rw [Budget.remaining, hcap, hsum]
  · simp only [allocate_answer, allocate_allocator]
    exact a.capped_request_record l b r.2.allocator.2
  · rw [allocate_answer] at hn
    rw [allocate_allocator]
    exact Allocator.capped_request_refused hn
  · obtain ⟨hc, hw⟩ := (agreeBut_perform hx r.2).performAll a' ys
    exact ⟨hc, hw.allocator, fun j hj => hw.chunk? hj⟩
  · exact performAll_mapAllocator a.projects_recorded.capped xs ⟨(⟨cap, 0⟩, s, []), []⟩

/-- Chunks of half the length asked for, the first of them dropped: it stays charged, and the
third request is refused. -/
theorem performAll_budget_halved :
    let a := (Allocator.ofHeap .roomy).scaled 1 2
    let l : Layout := ⟨64, 8, by decide, by decide⟩
    a.Bounded ∧
    ∃ r, r = performAll a.recorded.capped
        [.request l, .fill 0 0xAA, .drop 0, .request l, .request l] ⟨(⟨100, 0⟩, (), []), []⟩ ∧
      r.1.map Option.isSome = [true, true, false] ∧ bytesIn r.1 = 64 ∧
      r.2.allocator.1.allocated = bytesIn r.1 ∧ r.2.allocator.1.remaining = 100 - bytesIn r.1 := by
  intro a l
  have ha : a.Bounded := (Allocator.bounded_ofHeap .roomy).scaled (by decide)
  obtain ⟨⟨-, hsum, -, hrest⟩, -⟩ := performAll_budget a ha 100 ()
    [.request l, .fill 0 0xAA, .drop 0, .request l, .request l]
  refine ⟨ha, _, rfl, ?_, ?_, hsum, hrest⟩
  · decide
  · decide

end Workbench
end HeapPressure.Memory
