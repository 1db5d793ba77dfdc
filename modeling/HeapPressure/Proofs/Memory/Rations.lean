import HeapPressure.Proofs.Memory.Budget

/-!
Stacks of rations: budgets of bytes and counts of requests, in any order, over the process heap.
As long as every ration lasts, a request for chunks of one size passes through all of them, and
each is charged for it; the first one that does not last refuses, and no budget is charged.
-/
namespace HeapPressure.Memory

/-- So many bytes, or so many requests. -/
inductive Ration where
  | bytes (cap : Nat)
  | requests (most : Nat)
deriving DecidableEq

namespace Ration

/-- How many chunks of `size` bytes it is good for. -/
def lasts (size : Nat) : Ration → Nat
  | .bytes cap => cap / size
  | .requests most => most

def cap? : Ration → Option Nat
  | .bytes cap => some cap
  | .requests _ => none

/-- The ration in front of a stack, when `k` chunks of `size` bytes have come through it. -/
def level (size k : Nat) : Ration → Stack → Stack
  | .bytes cap, s => .capped ⟨cap, k * size⟩ s
  | .requests most, s => .gated ⟨.upTo most, k⟩ s

/-- Chunks that every ration is good for stay within each budget. -/
theorem mul_size_le_cap {rs : List Ration} {n size cap : Nat} (pos : 0 < size)
    (hn : ∀ r ∈ rs, n ≤ r.lasts size) (hc : cap ∈ rs.filterMap cap?) : n * size ≤ cap := by
  obtain ⟨r, hr, hrc⟩ := List.mem_filterMap.mp hc
  cases r with
  | bytes c =>
    cases hrc
    exact (Nat.le_div_iff_mul_le pos).mp (hn _ hr)
  | requests most => cases hrc

end Ration

namespace Stack

/-- The rations on the process heap, the first one outermost, none of them used. -/
def ofRations : List Ration → Stack
  | [] => .heap
  | .bytes cap :: rs => .capped ⟨cap, 0⟩ (ofRations rs)
  | .requests most :: rs => .gated ⟨.upTo most, 0⟩ (ofRations rs)

/-- The same when `k` chunks of `size` bytes were handed out. -/
def spent (size k : Nat) : List Ration → Stack
  | [] => .heap
  | r :: rs => r.level size k (spent size k rs)

/-- All budgets of a stack, the outermost first. -/
def budgets : Stack → List Budget
  | .heap => []
  | .capped b inner => b :: inner.budgets
  | .gated _ inner => inner.budgets
  | .scaled _ _ inner => inner.budgets

theorem ofRations_eq_spent (size : Nat) (rs : List Ration) : ofRations rs = spent size 0 rs := by
  induction rs with
  | nil => rfl
  | cons r rs ih =>
    cases r with
    | bytes cap => rw [ofRations, spent, Ration.level, Nat.zero_mul, ih]
    | requests most => rw [ofRations, spent, Ration.level, ih]

theorem budgets_level (size k : Nat) (r : Ration) (s : Stack) :
    (r.level size k s).budgets = (r.cap?.map fun cap => ⟨cap, k * size⟩).toList ++ s.budgets := by
  cases r <;> rfl

theorem budgets_spent (size k : Nat) (rs : List Ration) :
    (spent size k rs).budgets = (rs.filterMap Ration.cap?).map fun cap => ⟨cap, k * size⟩ := by
  induction rs with
  | nil => rfl
  | cons r rs ih =>
    rw [spent, budgets_level, ih]
    cases r <;> rfl

variable {h : Heap} {l : Layout} {k : Nat} {s t : Stack} {c : Option Chunk}

theorem admits_iff_lt_lasts (pos : 0 < l.size) {cap : Nat} :
    (⟨cap, k * l.size⟩ : Budget).admits l = true ↔ k < (Ration.bytes cap).lasts l.size := by
  have hle : k + 1 ≤ cap / l.size ↔ (k + 1) * l.size ≤ cap := Nat.le_div_iff_mul_le pos
  rw [Budget.admits_iff, Budget.remaining, Ration.lasts, Nat.lt_iff_add_one_le, hle, Nat.succ_mul]
  change l.size ≤ cap - k * l.size ↔ _
  omega

theorem isOpen_iff_lt_lasts {most size : Nat} :
    (⟨.upTo most, k⟩ : Gate).count.isOpen = true ↔ k < (Ration.requests most).lasts size := by
  change decide (k + 1 ≤ most) = true ↔ k < most
  rw [decide_eq_true_iff, Nat.lt_iff_add_one_le]

/-- A ration that lasts passes the request on, and is charged when a chunk comes back. -/
theorem request_level_some (pos : 0 < l.size) (r : Ration) (hr : k < r.lasts l.size) {c : Chunk}
    (hlen : c.len = l.size) (hs : request h l s = (some c, t)) :
    request h l (r.level l.size k s) = (some c, r.level l.size (k + 1) t) := by
  cases r with
  | bytes cap =>
    rw [Ration.level, request, if_pos ((admits_iff_lt_lasts pos).mpr hr), hs]
    rw [Ration.level, Nat.succ_mul, ← hlen]
    rfl
  | requests most =>
    rw [Ration.level, request, if_pos (isOpen_iff_lt_lasts.mpr hr), hs]
    rfl

theorem request_level_none (pos : 0 < l.size) (r : Ration) (hr : k < r.lasts l.size)
    (hs : request h l s = (none, t)) :
    ∃ u, request h l (r.level l.size k s) = (none, u) ∧
      u.budgets = (r.level l.size k t).budgets := by
  cases r with
  | bytes cap =>
    refine ⟨.capped ⟨cap, k * l.size⟩ t, ?_, rfl⟩
    rw [Ration.level, request, if_pos ((admits_iff_lt_lasts pos).mpr hr), hs]
    rfl
  | requests most =>
    refine ⟨.gated ⟨.upTo most, k + 1⟩ t, ?_, rfl⟩
    rw [Ration.level, request, if_pos (isOpen_iff_lt_lasts.mpr hr), hs]
    rfl

/-- A ration that is used up refuses without asking the levels behind it. -/
theorem request_level_refused (pos : 0 < l.size) (r : Ration) (hr : ¬k < r.lasts l.size)
    (s : Stack) :
    ∃ u, request h l (r.level l.size k s) = (none, u) ∧
      u.budgets = (r.level l.size k s).budgets := by
  cases r with
  | bytes cap =>
    refine ⟨.capped ⟨cap, k * l.size⟩ s, ?_, rfl⟩
    rw [Ration.level, request, if_neg (mt (admits_iff_lt_lasts pos).mp hr)]
  | requests most =>
    refine ⟨.gated ⟨.upTo most, k + 1⟩ s, ?_, rfl⟩
    rw [Ration.level, request, if_neg (mt isOpen_iff_lt_lasts.mp hr)]
    rfl

/-- While every ration lasts, a chunk that the heap hands out comes through, and is charged to
every budget. -/
theorem request_spent_some {c : Chunk} (hc : h.allocate l = some c) (pos : 0 < l.size)
    (rs : List Ration) (hk : ∀ r ∈ rs, k < r.lasts l.size) :
    request h l (spent l.size k rs) = (some c, spent l.size (k + 1) rs) := by
  induction rs with
  | nil =>
    rw [spent, request, hc]
    rfl
  | cons r rs ih =>
    obtain ⟨hr, hrs⟩ := List.forall_mem_cons.mp hk
    exact request_level_some pos r hr (Heap.allocate_len hc) (ih hrs)

/-- Once a ration does not last any longer, the request is refused, and no budget is charged. -/
theorem request_spent_none (pos : 0 < l.size) (rs : List Ration)
    (hk : ∃ r ∈ rs, ¬k < r.lasts l.size) :
    ∃ u, request h l (spent l.size k rs) = (none, u) ∧
      u.budgets = (spent l.size k rs).budgets := by
  induction rs with
  | nil => simp at hk
  | cons r rs ih =>
    by_cases hr : k < r.lasts l.size
    · have hin : ∃ q ∈ rs, ¬k < q.lasts l.size := by
        obtain ⟨q, hq, hqk⟩ := hk
        rcases List.mem_cons.mp hq with rfl | hq
        · exact absurd hr hqk
        · exact ⟨q, hq, hqk⟩
      obtain ⟨t, ht, htb⟩ := ih hin
      obtain ⟨u, hu, hub⟩ := request_level_none pos r hr ht
      refine ⟨u, hu, ?_⟩
      rw [hub, budgets_level, htb, ← budgets_level]
      rfl
    · exact request_level_refused pos r hr (spent l.size k rs)

end Stack
end HeapPressure.Memory
