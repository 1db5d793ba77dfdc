import HeapPressure.Proofs.Exhaust.Stopping
import HeapPressure.Proofs.Memory.Rations
import Mathlib.Algebra.GroupWithZero.Nat

/-!
Exhaustion of a stack of rations. While all of them last every step obtains a chunk, and the
budgets stand at what the exhauster holds; the step after that stops it. So the number of chunks
is the least that one of the rations is good for.
-/
namespace HeapPressure.Exhaust

open Memory (Chunk Heap Ration Stack)

theorem Handles.exists_reserve_true (h : Handles) : ∃ h', h.reserve true = some h' := by
  unfold reserve
  split
  · exact ⟨h, rfl⟩
  · exact ⟨_, rfl⟩

namespace Exhauster

/-- All that is held after `k` chunks. -/
structure Holds {σ : Type} (k : Nat) (e : Exhauster σ) : Prop where
  size : e.retained.size = k
  lengths : ∀ c ∈ e.retained.toList, c.len = e.layout.size

/-- After `k` steps on a stack of rations that have lasted so far. -/
structure Served (rs : List Ration) (k : Nat) (e : Exhauster Stack) : Prop extends Holds k e where
  running : e.state = .running
  requests : e.requests = k
  allocator : e.allocator = Stack.spent e.layout.size k rs

/-- Behind the first request that was refused. -/
structure Refused (rs : List Ration) (k : Nat) (e : Exhauster Stack) : Prop extends Holds k e where
  state : e.state = .stopped .allocationExhausted
  requests : e.requests = k + 1
  budgets : e.allocator.budgets = (Stack.spent e.layout.size k rs).budgets

variable {h : Heap} {rs : List Ration} {k : Nat} {e : Exhauster Stack}

theorem Holds.push {σ : Type} {e : Exhauster σ} (he : Holds k e) {handles : Handles}
    {granted : Bool} (hr : e.handles.reserve granted = some handles) {c : Chunk}
    (hc : c.len = e.layout.size) {e' : Exhauster σ} (hlayout : e'.layout = e.layout)
    (hretained : e'.retained = handles.chunks.push c) : Holds (k + 1) e' := by
  rw [Handles.chunks_of_reserve hr] at hretained
  refine ⟨?_, fun d hd => ?_⟩
  · rw [hretained, Array.size_push]
    exact congrArg (· + 1) he.size
  · rw [hretained, Array.toList_push] at hd
    rw [hlayout]
    rcases List.mem_append.mp hd with hd | hd
    · exact he.lengths d hd
    · rw [List.mem_singleton.mp hd, hc]

theorem Served.step (he : Served rs k e) (hh : h.serves e.layout = true)
    (pos : 0 < e.layout.size) (hk : ∀ r ∈ rs, k < r.lasts e.layout.size) :
    Served rs (k + 1) (e.step (.ofStack h true)) := by
  obtain ⟨handles, hr⟩ := e.handles.exists_reserve_true
  have hc : h.allocate e.layout = some ⟨e.layout, pos, none⟩ := by
    rw [Heap.allocate, dif_pos pos, if_pos hh]
  have ha : Stack.request h e.layout e.allocator = _ :=
    he.allocator ▸ Stack.request_spent_some hc pos rs hk
  rw [(Stepped.served (s := .ofStack h true) he.running hr ha).step_eq]
  exact ⟨he.push hr (len_touch _ _) rfl rfl, he.running, congrArg (· + 1) he.requests, rfl⟩

theorem Served.step_last (he : Served rs k e) (pos : 0 < e.layout.size)
    (hk : ∃ r ∈ rs, ¬k < r.lasts e.layout.size) :
    Refused rs k (e.step (.ofStack h true)) := by
  obtain ⟨handles, hr⟩ := e.handles.exists_reserve_true
  obtain ⟨u, hu, hbudgets⟩ := Stack.request_spent_none (h := h) pos rs hk
  have ha : Stack.request h e.layout e.allocator = (none, u) := he.allocator ▸ hu
  have hchunks : handles.chunks = e.handles.chunks := Handles.chunks_of_reserve hr
  rw [(Stepped.refused (s := .ofStack h true) he.running hr ha).step_eq]
  refine ⟨⟨?_, ?_⟩, rfl, congrArg (· + 1) he.requests, hbudgets⟩
  · exact (congrArg Array.size hchunks).trans he.size
  · change ∀ c ∈ handles.chunks.toList, c.len = e.layout.size
    rw [hchunks]
    exact he.lengths

theorem Served.steps (he : Served rs 0 e) (hh : h.serves e.layout = true)
    (pos : 0 < e.layout.size) (hk : ∀ r ∈ rs, k ≤ r.lasts e.layout.size) :
    Served rs k (e.steps (.ofStack h true) k) := by
  induction k with
  | zero => exact he
  | succ k ih =>
    have hserved := ih fun r hr => Nat.le_of_succ_le (hk r hr)
    have hlayout := steps_layout (.ofStack h true) k e
    rw [steps_succ]
    exact hserved.step (hlayout ▸ hh) (hlayout ▸ pos) fun r hr => hlayout ▸ hk r hr

/-- The step behind the last chunk that the weakest ration is good for. -/
theorem Served.steps_last {n : Nat} (he : Served rs 0 e) (hh : h.serves e.layout = true)
    (pos : 0 < e.layout.size) (hn : ∀ r ∈ rs, n ≤ r.lasts e.layout.size)
    (hlast : ∃ r ∈ rs, ¬n < r.lasts e.layout.size) :
    Refused rs n (e.steps (.ofStack h true) (n + 1)) := by
  have hlayout := steps_layout (.ofStack h true) n e
  rw [steps_succ]
  exact (he.steps hh pos hn).step_last (hlayout ▸ pos) (hlayout ▸ hlast)

theorem Refused.isStopped (he : Refused rs k e) : e.isStopped = true :=
  isStopped_eq_true.mpr (by simp [he.state])

theorem served_start {p : Plan} (he : start p (Stack.ofRations rs) = .ok e) : Served rs 0 e := by
  obtain ⟨l, -, rfl⟩ := start_eq_ok he
  exact ⟨⟨rfl, by simp [retained]⟩, rfl, rfl, Stack.ofRations_eq_spent l.size rs⟩

theorem sum_len_eq {σ : Type} {e : Exhauster σ} (he : Holds k e) :
    (e.retained.toList.map Chunk.len).sum = k * e.layout.size := by
  have hall : e.retained.toList.map Chunk.len = List.replicate k e.layout.size := by
    rw [List.eq_replicate_iff]
    refine ⟨?_, ?_⟩
    · rw [List.length_map, Array.length_toList, he.size]
    · intro n hn
      obtain ⟨c, hc, rfl⟩ := List.mem_map.mp hn
      exact he.lengths c hc
  rw [hall, List.sum_replicate_nat]

theorem Holds.report_eq {σ : Type} {e : Exhauster σ} (he : Holds k e)
    (hfits : k * e.layout.size < wordBound) : e.report =
    .ok { chunks := k
          chunkSize := e.layout.size
          bytesRetained := k * e.layout.size
          requests := e.requests
          stopReason := e.state.reason? } := by
  rw [Exhauster.report_eq, he.size, if_pos hfits]

/-- There is a report, and the budgets of the stack stand at what it says is held. -/
def Agrees (e : Exhauster Stack) : Prop :=
  ∃ r, e.report = .ok r ∧ ∀ b ∈ e.allocator.budgets, b.allocated = r.bytesRetained

theorem agrees_of_budgets (he : Holds k e) (hfits : k * e.layout.size < wordBound)
    (hb : e.allocator.budgets = (Stack.spent e.layout.size k rs).budgets) : e.Agrees := by
  refine ⟨_, he.report_eq hfits, fun b hm => ?_⟩
  rw [hb, Stack.budgets_spent] at hm
  obtain ⟨cap, -, rfl⟩ := List.mem_map.mp hm
  rfl

theorem Served.agrees (he : Served rs k e) (hfits : k * e.layout.size < wordBound) : e.Agrees :=
  agrees_of_budgets he.toHolds hfits (congrArg Stack.budgets he.allocator)

theorem Refused.agrees (he : Refused rs k e) (hfits : k * e.layout.size < wordBound) : e.Agrees :=
  agrees_of_budgets he.toHolds hfits he.budgets

theorem Refused.report_eq (he : Refused rs k e) (hfits : k * e.layout.size < wordBound) :
    e.report =
      .ok { chunks := k
            chunkSize := e.layout.size
            bytesRetained := k * e.layout.size
            requests := k + 1
            stopReason := some .allocationExhausted } := by
  rw [he.toHolds.report_eq hfits, he.requests, he.state]
  rfl

/-- The run of a fresh exhauster ends behind the last chunk that the weakest ration is good for,
and its steps keep the budgets at what is reported. -/
theorem Served.run {n : Nat} (he : Served rs 0 e) (hh : h.serves e.layout = true)
    (pos : 0 < e.layout.size) (hn : ∀ r ∈ rs, n ≤ r.lasts e.layout.size)
    (hlast : ∃ r ∈ rs, ¬n < r.lasts e.layout.size) (hreq : n + 1 ≤ requestBound)
    (hfits : n * e.layout.size < wordBound) :
    Refused rs n (e.run (.ofStack h true)) ∧ ∀ k, (e.steps (.ofStack h true) k).Agrees := by
  have hend := he.steps_last hh pos hn hlast
  refine ⟨?_, fun k => ?_⟩
  · rw [run_eq_of_isStopped hend.isStopped hreq]
    exact hend
  · by_cases hk : k ≤ n
    · have hserved := he.steps hh pos fun r hr => Nat.le_trans hk (hn r hr)
      have hle : k * e.layout.size ≤ n * e.layout.size := Nat.mul_le_mul_right _ hk
      refine hserved.agrees ?_
      rw [steps_layout]
      exact Nat.lt_of_le_of_lt hle hfits
    · rw [steps_of_le hend.isStopped (Nat.lt_of_not_le hk)]
      refine hend.agrees ?_
      rw [steps_layout]
      exact hfits

/-- Over a heap that serves chunks of the planned size, and with a list that can always grow,
a stack of fresh rations is exhausted to the last chunk: as many are obtained as the weakest
ration is good for, the next request is refused and ends the run, there is a report that counts
exactly what is held, and every budget has been charged for that; it was so at every step on the
way. Budgets are numbers of 64 bits; where there is none, the bytes held are to fit into 64 bits. -/
theorem run_exhausts_rations (h : Heap) (p : Plan) (rs : List Ration) (n : Nat)
    (e : Exhauster Stack) (he : start p (Stack.ofRations rs) = .ok e)
    (hh : h.serves e.layout = true) (hn : (rs.map (Ration.lasts p.chunkSize)).min? = some n)
    (hreq : n + 1 < 0x10000000000000000)
    (hcap : ∀ cap ∈ rs.filterMap Ration.cap?, cap < 0x10000000000000000)
    (hfree : rs.filterMap Ration.cap? = [] → n * p.chunkSize < 0x10000000000000000) :
    let s := Surroundings.ofStack h true
    let e' := e.run s
    e'.state = .stopped .allocationExhausted ∧
    e'.report =
      .ok { chunks := n
            chunkSize := p.chunkSize
            bytesRetained := n * p.chunkSize
            requests := n + 1
            stopReason := some .allocationExhausted } ∧
    (∀ c ∈ e'.retained.toList, c.len = p.chunkSize) ∧
    e'.allocator.budgets =
      (rs.filterMap Ration.cap?).map (fun cap => ⟨cap, n * p.chunkSize⟩) ∧
    (n * p.chunkSize < 0x10000000000000000 ∧
      (e'.retained.toList.map Chunk.len).sum = n * p.chunkSize ∧
      ∀ cap ∈ rs.filterMap Ration.cap?, n * p.chunkSize ≤ cap) ∧
    (∀ cap, rs = [.bytes cap] →
      ∃ r, e'.report = .ok r ∧ cap - r.bytesRetained < p.chunkSize) ∧
    ∀ k, (e.steps s k).Agrees := by
  intro s e'
  obtain ⟨l, hl, hstart⟩ := start_eq_ok he
  have hsize : e.layout.size = p.chunkSize := by
    rw [hstart]
    exact p.layout_size hl
  have hpos : 0 < p.chunkSize := Plan.chunkSize_pos hl
  obtain ⟨hmem, hmin⟩ := List.min?_eq_some_iff.mp hn
  have hlasts : ∀ r ∈ rs, n ≤ r.lasts p.chunkSize := fun r hr => hmin _ (List.mem_map_of_mem hr)
  have hweakest : ∃ r ∈ rs, ¬n < r.lasts p.chunkSize := by
    obtain ⟨r, hr, hrn⟩ := List.mem_map.mp hmem
    exact ⟨r, hr, by omega⟩
  have hwithin : ∀ cap ∈ rs.filterMap Ration.cap?, n * p.chunkSize ≤ cap :=
    fun cap hc => Ration.mul_size_le_cap hpos hlasts hc
  have hfits : n * p.chunkSize < wordBound := by
    cases hcaps : rs.filterMap Ration.cap? with
    | nil => exact hfree hcaps
    | cons cap caps =>
      have hc : cap ∈ rs.filterMap Ration.cap? := hcaps ▸ List.mem_cons_self
      exact Nat.lt_of_le_of_lt (hwithin cap hc) (hcap cap hc)
  obtain ⟨hend, hagrees⟩ := (served_start he).run hh (hsize ▸ hpos) (hsize ▸ hlasts)
    (hsize ▸ hweakest) (Nat.le_of_lt hreq) (hsize ▸ hfits)
  have hlayout : (e.run s).layout.size = p.chunkSize := by rw [run_layout, hsize]
  have hrun : e' = e.run s := rfl
  -- as a value `e'` would be unfolded, all its steps
  clear_value e'
  subst hrun
  have hreport := hend.report_eq (hlayout ▸ hfits)
  have hlengths := hend.lengths
  have hbudgets := hend.budgets
  have hsum := sum_len_eq hend.toHolds
  rw [hlayout] at hreport hlengths hbudgets hsum
  rw [Stack.budgets_spent] at hbudgets
  refine ⟨hend.state, hreport, hlengths, hbudgets, ⟨hfits, hsum, hwithin⟩, fun cap hc => ?_,
    hagrees⟩
  have hdiv : n = cap / p.chunkSize := by
    simpa [hc, Ration.lasts, eq_comm] using hn
  have hmod := Nat.div_add_mod cap p.chunkSize
  have hlt := Nat.mod_lt cap hpos
  refine ⟨_, hreport, ?_⟩
  change cap - n * p.chunkSize < p.chunkSize
  rw [hdiv, Nat.mul_comm]
  omega

/-- Of nine requests, 100 bytes and 70 bytes the last are the weakest ration for chunks of 16. -/
theorem run_exhausts_rations_mixed :
    let rs : List Ration := [.requests 9, .bytes 100, .bytes 70]
    ∃ e, start { chunkSize := 16, touchPages := true } (Stack.ofRations rs) = .ok e ∧
      Heap.roomy.serves e.layout = true ∧ (rs.map (Ration.lasts 16)).min? = some 4 ∧
      (e.run (.ofStack .roomy true)).report = .ok ⟨4, 16, 64, 5, some .allocationExhausted⟩ ∧
      (e.run (.ofStack .roomy true)).allocator.budgets = [⟨100, 64⟩, ⟨70, 64⟩] := by
  intro rs
  have hplan : ∃ e, start { chunkSize := 16, touchPages := true } (Stack.ofRations rs) = .ok e :=
    ⟨_, rfl⟩
  obtain ⟨e, he⟩ := hplan
  have hh : Heap.roomy.serves e.layout = true := by
    obtain ⟨l, hl, rfl⟩ := start_eq_ok he
    cases hl
    rfl
  have hn : (rs.map (Ration.lasts 16)).min? = some 4 := by decide
  obtain ⟨-, hreport, -, hbudgets, -⟩ := run_exhausts_rations .roomy _ rs 4 e he hh hn
    (by decide) (by decide) (by decide)
  exact ⟨e, he, hh, hn, hreport, hbudgets⟩

end Exhauster
end HeapPressure.Exhaust
