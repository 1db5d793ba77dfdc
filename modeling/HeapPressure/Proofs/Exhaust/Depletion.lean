import HeapPressure.Proofs.Exhaust.Stopping
import HeapPressure.Proofs.Memory.Budget
import Mathlib.Algebra.GroupWithZero.Nat

/-!
A run behind a budget. Each chunk has a byte at least and is charged to the budget by its own
length, so the run ends even if the allocator behind the budget hands out less than it was asked
for, and the cap bounds the number of requests.
-/
namespace HeapPressure.Memory.Allocator

variable {σ : Type} {a : Allocator σ} {l : Layout} {c : Chunk}

/-- What comes through a budget was let through with room for the size asked for, and is charged
by its own length. -/
theorem capped_request_some {q q' : Budget × σ} (ha : a.Bounded) (hq : q.1.allocated ≤ q.1.cap)
    (h : a.capped.request l q = (some c, q')) :
    l.size ≤ q.1.remaining ∧ q'.1 = ⟨q.1.cap, q.1.allocated + c.len⟩ ∧
      q.1.allocated + c.len ≤ q.1.cap := by
  obtain ⟨b, s⟩ := q
  have hcharges := capped_request_charges ha l b s hq
  have hadmits : l.size ≤ b.remaining := by
    by_cases hd : b.admits l = true
    · exact Budget.admits_iff.mp hd
    · rw [capped_request_of_not_admits hd] at h
      cases h
  rw [h] at hcharges
  obtain ⟨hcap, hsum, hle⟩ := hcharges
  have hsum : q'.1.allocated = b.allocated + c.len := hsum
  refine ⟨hadmits, ?_, hsum ▸ hle⟩
  rw [← hsum, ← hcap]

theorem capped_request_none {q q' : Budget × σ} (h : a.capped.request l q = (none, q')) :
    q'.1 = q.1 := by
  have hrefused := capped_request_refused (congrArg Prod.fst h)
  exact (congrArg (fun r => r.2.1) h).symm.trans hrefused

end HeapPressure.Memory.Allocator

namespace HeapPressure.Exhaust

open Memory (Allocator Budget Chunk)

theorem length_le_sum_len (cs : List Chunk) : cs.length ≤ (cs.map Chunk.len).sum := by
  induction cs with
  | nil => exact Nat.le_refl 0
  | cons c cs ih =>
    have hc := c.len_pos
    simp only [List.length_cons, List.map_cons, List.sum_cons]
    omega

/-- The most chunks that a budget lets through to requests for `size` bytes: each of them takes a
byte at least, and `size` bytes are left before the last one. -/
def mostChunks (cap size : Nat) : Nat := if size ≤ cap then cap - size + 1 else 0

namespace Exhauster

variable {σ : Type}

/-- The bytes in the chunks that are held. -/
def bytesHeld (e : Exhauster σ) : Nat := (e.retained.toList.map Chunk.len).sum

theorem size_le_bytesHeld (e : Exhauster σ) : e.retained.size ≤ e.bytesHeld :=
  length_le_sum_len e.retained.toList

theorem bytesHeld_push {e e' : Exhauster σ} {c : Chunk}
    (h : e'.retained = e.retained.push (touch e.plan c)) :
    e'.bytesHeld = e.bytesHeld + c.len := by
  simp [bytesHeld, h, len_touch]

theorem step_requests_le (s : Surroundings σ) (e : Exhauster σ) :
    (e.step s).requests ≤ e.requests + 1 := by
  generalize he : e.step s = e'
  cases he ▸ stepped s e <;> simp

/-- Behind a budget of `cap` bytes, which has been charged what is held, and has let through no
more chunks than it can. -/
structure Draws (cap : Nat) (e : Exhauster (Budget × σ)) : Prop where
  budget : e.allocator.1 = ⟨cap, e.bytesHeld⟩
  within : e.bytesHeld ≤ cap
  few : e.retained.size ≤ mostChunks cap e.layout.size

theorem draws_start {p : Plan} {cap : Nat} {s : σ} {e : Exhauster (Budget × σ)}
    (h : start p (⟨cap, 0⟩, s) = .ok e) : Draws cap e := by
  obtain ⟨l, -, rfl⟩ := start_eq_ok h
  exact ⟨rfl, Nat.zero_le _, Nat.zero_le _⟩

theorem Draws.congr {cap : Nat} {e e' : Exhauster (Budget × σ)} (h : e.Draws cap)
    (hretained : e'.retained = e.retained) (hbudget : e'.allocator.1 = e.allocator.1)
    (hlayout : e'.layout = e.layout) : e'.Draws cap := by
  have hheld : e'.bytesHeld = e.bytesHeld := by rw [bytesHeld, hretained, bytesHeld]
  refine ⟨?_, ?_, ?_⟩
  · rw [hbudget, hheld, h.budget]
  · rw [hheld]
    exact h.within
  · rw [hretained, hlayout]
    exact h.few

/-- The budget had room for one more request, so there were fewer chunks than it lets through. -/
theorem draws_of_push {cap : Nat} {e e' : Exhauster (Budget × σ)} {c : Chunk}
    (hretained : e'.retained = e.retained.push (touch e.plan c))
    (hbudget : e'.allocator.1 = ⟨cap, e.bytesHeld + c.len⟩) (hlayout : e'.layout = e.layout)
    (hroom : e.layout.size ≤ cap - e.bytesHeld) (pos : 0 < e.layout.size)
    (hfits : e.bytesHeld + c.len ≤ cap) : e'.Draws cap := by
  have hheld : e'.bytesHeld = e.bytesHeld + c.len := bytesHeld_push hretained
  have hsize := e.size_le_bytesHeld
  refine ⟨?_, ?_, ?_⟩
  · rw [hbudget, hheld]
  · rw [hheld]
    exact hfits
  · rw [hretained, hlayout, Array.size_push, mostChunks, if_pos (by omega)]
    omega

theorem Draws.step {cap : Nat} {e : Exhauster (Budget × σ)} (h : e.Draws cap) {a : Allocator σ}
    (ha : a.Bounded) (pos : 0 < e.layout.size) (g : Handles → Bool) :
    (e.step ⟨a.capped, g⟩).Draws cap := by
  generalize he : e.step ⟨a.capped, g⟩ = e'
  cases he ▸ stepped ⟨a.capped, g⟩ e with
  | idle stopped => exact h
  | full running hr => exact h.congr rfl rfl rfl
  | refused running hr hq =>
    exact h.congr (Handles.chunks_of_reserve hr) (Allocator.capped_request_none hq) rfl
  | @served handles c t running hr hq =>
    have hretained : handles.chunks.push (touch e.plan c) = e.retained.push (touch e.plan c) :=
      congrArg (Array.push · _) (Handles.chunks_of_reserve hr)
    have hwithin : e.allocator.1.allocated ≤ e.allocator.1.cap := by
      rw [h.budget]
      exact h.within
    obtain ⟨hroom, hcharged, hfits⟩ := Allocator.capped_request_some ha hwithin hq
    rw [h.budget] at hroom hcharged hfits
    exact draws_of_push hretained hcharged rfl hroom pos hfits

theorem Draws.steps {cap : Nat} {e : Exhauster (Budget × σ)} (h : e.Draws cap) {a : Allocator σ}
    (ha : a.Bounded) (pos : 0 < e.layout.size) (g : Handles → Bool) (n : Nat) :
    (e.steps ⟨a.capped, g⟩ n).Draws cap := by
  induction n with
  | zero => exact h
  | succ n ih =>
    have hlayout := steps_layout ⟨a.capped, g⟩ n e
    rw [steps_succ]
    exact ih.step ha (hlayout ▸ pos) g

/-- As long as the loop goes on, its requests are the chunks held; the one that stops it may be
one more. -/
theorem requests_le_of_draws {cap : Nat} {e : Exhauster (Budget × σ)}
    {s : Surroundings (Budget × σ)} (h : ∀ n, (e.steps s n).Draws cap)
    (hfresh : e.retained.size = 0 ∧ e.requests = 0) (n : Nat) :
    (e.steps s n).requests ≤ mostChunks cap e.layout.size + 1 := by
  induction n with
  | zero =>
    rw [Exhauster.steps, hfresh.2]
    exact Nat.zero_le _
  | succ n ih =>
    rw [steps_succ]
    cases hs : (e.steps s n).isStopped with
    | true =>
      rw [step_of_isStopped hs]
      exact ih
    | false =>
      obtain ⟨hsize, hrequests⟩ := steps_running (isStopped_eq_false.mp hs)
      have hfew := (h n).few
      have hstep := step_requests_le s (e.steps s n)
      rw [steps_layout] at hfew
      omega

/-- More steps than the budget lets chunks through do not all bring a chunk. -/
theorem isStopped_of_draws {cap : Nat} {e : Exhauster (Budget × σ)}
    {s : Surroundings (Budget × σ)} (h : ∀ n, (e.steps s n).Draws cap) :
    (e.steps s (mostChunks cap e.layout.size + 1)).isStopped = true := by
  cases hs : (e.steps s (mostChunks cap e.layout.size + 1)).isStopped with
  | true => rfl
  | false =>
    obtain ⟨hsize, -⟩ := steps_running (isStopped_eq_false.mp hs)
    have hfew := (h (mostChunks cap e.layout.size + 1)).few
    rw [steps_layout] at hfew
    omega

/-- Behind a budget of `cap` bytes the loop stops, whatever the allocator behind the budget hands
out and whenever the list is refused room: after `cap - size + 2` requests at most if the budget
is good for a chunk at all, and after one request at most if it is not. What is held never exceeds
the cap. A run is the whole loop if the cap fits into 64 bits. -/
theorem run_depletes_budget (a : Allocator σ) (ha : a.Bounded) (cap : Nat) (s : σ) (p : Plan)
    (e : Exhauster (Budget × σ)) (he : start p (⟨cap, 0⟩, s) = .ok e) (g : Handles → Bool) :
    let w : Surroundings (Budget × σ) := ⟨a.capped, g⟩
    let most := if p.chunkSize ≤ cap then cap - p.chunkSize + 2 else 1
    (∀ n, (e.steps w n).requests ≤ most ∧ (e.steps w n).bytesHeld ≤ cap) ∧
    ∃ n ≤ most, (e.steps w n).isStopped = true ∧ (∀ m ≥ n, e.runWithin w m = e.steps w n) ∧
      (cap < requestBound → e.run w = e.steps w n) := by
  intro w most
  obtain ⟨hsize, hpos⟩ := layout_size_of_start he
  have hfresh : e.retained.size = 0 ∧ e.requests = 0 := by
    obtain ⟨l, -, rfl⟩ := start_eq_ok he
    exact ⟨rfl, rfl⟩
  have hmost : most = mostChunks cap e.layout.size + 1 := by
    simp only [most, mostChunks, hsize]
    split <;> rfl
  have hdraws (n : Nat) : (e.steps w n).Draws cap :=
    (draws_start he).steps ha hpos g n
  have hstopped : (e.steps w most).isStopped = true := hmost ▸ isStopped_of_draws hdraws
  refine ⟨fun n => ⟨?_, (hdraws n).within⟩, most, Nat.le_refl most, hstopped, ?_, ?_⟩
  · rw [hmost]
    exact requests_le_of_draws hdraws hfresh n
  · intro m hm
    rw [runWithin_eq_steps, steps_of_le hstopped hm]
  · intro hcap
    apply run_eq_of_isStopped hstopped
    simp only [most]
    split <;> omega

/-- Single bytes for chunks of four from a budget of ten: seven of them until less than four are
left, and the eighth request is refused. -/
theorem run_depletes_budget_bytewise :
    let a := (Allocator.ofHeap .roomy).scaled 1 4
    let w : Surroundings (Budget × Unit) := ⟨a.capped, fun _ => true⟩
    a.Bounded ∧ ∃ e, start { chunkSize := 4 } (⟨10, 0⟩, ()) = .ok e ∧
      (e.run w).isStopped = true ∧ (e.run w).requests = 10 - 4 + 2 ∧
      (e.run w).bytesHeld = 7 ∧ (e.run w).bytesHeld ≤ 10 := by
  intro a w
  have ha : a.Bounded := (Allocator.bounded_ofHeap .roomy).scaled (by decide)
  have hplan : ∃ e, start { chunkSize := 4 } ((⟨10, 0⟩, ()) : Budget × Unit) = .ok e := ⟨_, rfl⟩
  obtain ⟨e, he⟩ := hplan
  obtain ⟨hbounds, n, hn, hstopped, -, hrun⟩ :=
    run_depletes_budget a ha 10 () _ e he fun _ => true
  have hrun : e.run w = e.steps w n := hrun (by decide)
  have hlast : e.run w = e.steps w 8 := hrun.trans (steps_of_le hstopped hn).symm
  have hcounts : (e.steps w 8).requests = 8 ∧ (e.steps w 8).bytesHeld = 7 := by
    obtain ⟨l, hl, rfl⟩ := start_eq_ok he
    cases hl
    decide +kernel
  refine ⟨ha, e, he, hrun ▸ hstopped, ?_, ?_, ?_⟩
  · rw [hlast, hcounts.1]
  · rw [hlast, hcounts.2]
  · rw [hrun]
    exact (hbounds n).2

end Exhauster
end HeapPressure.Exhaust
