import HeapPressure.Proofs.Exhaust.Trace
import Mathlib.Algebra.GroupWithZero.Nat

/-!
Growth of the list of chunks. Room is made before a chunk is asked for, so to add the chunk takes
no memory; and the heap is asked for room only at 0, 4, 8, 16, ... chunks, so that the list fails
there or nowhere.
-/
namespace HeapPressure.Exhaust

open Memory (Allocator Chunk Exchange)

/-- The numbers of chunks with which the list is full: none, or four times a power of two. -/
def FillsList (n : Nat) : Prop := n = 0 ∨ ∃ k, n = 4 * 2 ^ k

namespace Handles

theorem reserve_of_room (granted : Bool) {h : Handles} (room : h.chunks.size < h.capacity) :
    h.reserve granted = some h := by
  rw [reserve, if_pos (by simpa [hasRoom] using room)]

/-- Without an answer from the heap there is room only in a list that is not full. -/
theorem reserve_false_eq_none_iff {h : Handles} :
    h.reserve false = none ↔ h.chunks.size = h.capacity := by
  have hle := h.size_le
  by_cases room : h.chunks.size < h.capacity
  · simp [reserve_of_room false room]
    omega
  · simp [reserve, hasRoom, room]
    omega

theorem reserve_eq_none_iff {granted : Bool} {h : Handles} :
    h.reserve granted = none ↔ h.chunks.size = h.capacity ∧ granted = false := by
  cases granted with
  | false => simp [reserve_false_eq_none_iff]
  | true =>
    unfold reserve
    split <;> simp

theorem capacity_of_reserve {granted : Bool} {h h' : Handles} (hr : h.reserve granted = some h') :
    h'.capacity = if h.chunks.size < h.capacity then h.capacity else grownCapacity h.capacity := by
  by_cases room : h.chunks.size < h.capacity
  · cases (reserve_of_room granted room).symm.trans hr
    rw [if_pos room]
  · rw [if_neg room]
    cases granted with
    | false => simp [reserve, hasRoom, room] at hr
    | true =>
      have hg := congrArg (Option.map Handles.capacity) hr
      simpa [reserve, hasRoom, room, eq_comm] using hg

/-- Adds a chunk as a list does that grows by itself: where there is no room the heap is asked,
and if it refuses there is no list any more, for the process is aborted. -/
def add? (granted : Bool) (h : Handles) (c : Chunk) : Option Handles :=
  match hr : h.reserve granted with
  | some h' => some (h'.push (hasRoom_of_reserve hr) c)
  | none => none

theorem add?_of_room (granted : Bool) {h : Handles} (room : h.chunks.size < h.capacity)
    (c : Chunk) : h.add? granted c = some (h.push room c) := by
  have hr := reserve_of_room granted room
  unfold add?
  split
  · next h' hr' =>
    cases hr.symm.trans hr'
    rfl
  · next hr' => cases hr.symm.trans hr'

/-- The room that a list has got by growing when it was full, and by nothing else. -/
structure Fitted (h : Handles) : Prop where
  fills : FillsList h.capacity
  needed : h.capacity = 0 ∨ h.capacity = 4 ∧ 0 < h.chunks.size ∨ h.capacity < 2 * h.chunks.size

theorem fitted_empty : ({} : Handles).Fitted := ⟨.inl rfl, .inl rfl⟩

theorem fillsList_grownCapacity {n : Nat} (h : FillsList n) : FillsList (grownCapacity n) := by
  cases h with
  | inl h =>
    subst h
    exact .inr ⟨0, rfl⟩
  | inr h =>
    obtain ⟨k, rfl⟩ := h
    refine .inr ⟨k + 1, ?_⟩
    have hpos : 0 < 2 ^ k := Nat.two_pow_pos k
    simp only [grownCapacity, Nat.pow_succ]
    omega

theorem Fitted.push {h h' : Handles} (hf : h.Fitted) {granted : Bool}
    (hr : h.reserve granted = some h') (c : Chunk) :
    (h'.push (hasRoom_of_reserve hr) c).Fitted := by
  have hsize : h'.chunks.size = h.chunks.size := congrArg Array.size (chunks_of_reserve hr)
  have hcap := capacity_of_reserve hr
  by_cases room : h.chunks.size < h.capacity
  · rw [if_pos room] at hcap
    refine ⟨hcap ▸ hf.fills, ?_⟩
    have hn := hf.needed
    simp only [Handles.push, Array.size_push]
    omega
  · rw [if_neg room] at hcap
    refine ⟨hcap ▸ fillsList_grownCapacity hf.fills, ?_⟩
    have hle := h.size_le
    simp only [Handles.push, Array.size_push, hcap, grownCapacity]
    omega

/-- Such a list is full with the numbers of chunks that fill a list, and with no others. -/
theorem Fitted.full_iff {h : Handles} (hf : h.Fitted) :
    h.chunks.size = h.capacity ↔ FillsList h.chunks.size := by
  constructor
  · intro hfull
    exact hfull ▸ hf.fills
  · intro hfills
    have hle := h.size_le
    have hn := hf.needed
    cases hfills with
    | inl hzero => omega
    | inr hpow =>
      obtain ⟨k, hk⟩ := hpow
      have hpos : 0 < 2 ^ k := Nat.two_pow_pos k
      cases hf.fills with
      | inl hzero => omega
      | inr hcap =>
        obtain ⟨j, hj⟩ := hcap
        -- the size lies above half the capacity, and both are powers
        have hkj : k ≤ j := (Nat.pow_le_pow_iff_right (by decide : 1 < 2)).mp (by omega)
        have hjk : j < k + 1 := by
          apply (Nat.pow_lt_pow_iff_right (by decide : 1 < 2)).mp
          rw [Nat.pow_succ]
          omega
        have hjk : j = k := by omega
        rw [hk, hj, hjk]

end Handles

namespace Exhauster

variable {σ : Type}

/-- A turn of the loop in which the list may also grow when the chunk is added, with `granted` as
the heap's answer then; none if that aborts the process. -/
def stepGrowing (s : Surroundings σ) (granted : Bool) (e : Exhauster σ) : Option (Exhauster σ) :=
  if e.isStopped then some e
  else
    match e.handles.reserve (s.listGrows e.handles) with
    | none => some { e with state := .stopped .listExhausted }
    | some handles =>
      match s.allocator.request e.layout e.allocator with
      | (some c, allocator) =>
        (handles.add? granted (touch e.plan c)).map fun handles =>
          { e with
            allocator
            handles
            requests := e.requests + 1 }
      | (none, allocator) =>
        some { e with
          allocator
          handles
          requests := e.requests + 1
          state := .stopped .allocationExhausted }

/-- There is room when the chunk is added, so that the heap is not asked then. -/
theorem stepGrowing_eq (s : Surroundings σ) (granted : Bool) (e : Exhauster σ) :
    e.stepGrowing s granted = some (e.step s) := by
  generalize he : e.step s = e'
  unfold stepGrowing
  cases he ▸ stepped s e with
  | idle stopped => rw [if_pos (isStopped_eq_true.mpr stopped)]
  | full running hr => simp [isStopped_eq_false.mpr running, hr]
  | refused running hr ha => simp [isStopped_eq_false.mpr running, hr, ha]
  | served running hr ha =>
    simp [isStopped_eq_false.mpr running, hr, ha,
      Handles.add?_of_room granted (Handles.hasRoom_of_reserve hr)]

/-- While it runs, an exhauster has the room that its chunks needed. -/
def Fitted (e : Exhauster σ) : Prop := e.state = .running → e.handles.Fitted

theorem fitted_start {p : Plan} {s : σ} {e : Exhauster σ} (h : start p s = .ok e) : e.Fitted := by
  obtain ⟨l, -, rfl⟩ := start_eq_ok h
  exact fun _ => Handles.fitted_empty

theorem Fitted.step {e : Exhauster σ} (h : e.Fitted) (s : Surroundings σ) :
    (e.step s).Fitted := by
  generalize he : e.step s = e'
  cases he ▸ stepped s e with
  | idle stopped => exact h
  | full running hr => exact nofun
  | refused running hr ha => exact nofun
  | served running hr ha => exact fun _ => (h running).push hr _

/-- The list fails in a step exactly when it is full and the heap refuses it room. The step then
does nothing else. -/
theorem step_listExhausted_iff {e : Exhauster σ} (running : e.state = .running)
    (s : Surroundings σ) :
    (e.step s).state = .stopped .listExhausted ↔
      e.retained.size = e.handles.capacity ∧ s.listGrows e.handles = false := by
  rw [retained, ← Handles.reserve_eq_none_iff]
  generalize he : e.step s = e'
  cases he ▸ stepped s e with
  | idle stopped => exact absurd running stopped
  | full _ hr => simp [hr]
  | refused _ hr _ => simp [hr]
  | served _ hr _ => simp [hr, running]

theorem step_of_listExhausted {e : Exhauster σ} (running : e.state = .running)
    {s : Surroundings σ} (h : (e.step s).state = .stopped .listExhausted) :
    e.step s = { e with state := .stopped .listExhausted } := by
  obtain ⟨hfull, hg⟩ := (step_listExhausted_iff running s).mp h
  exact (Stepped.full running (Handles.reserve_eq_none_iff.mpr ⟨hfull, hg⟩)).step_eq

/-- When the chunk is refused, the list is what stops the loop if it fails too. -/
theorem step_state_of_refused {e : Exhauster σ} (running : e.state = .running)
    {s : Surroundings σ} (h : (s.allocator.request e.layout e.allocator).1 = none) :
    (e.step s).state =
      if e.retained.size = e.handles.capacity ∧ s.listGrows e.handles = false then
        .stopped .listExhausted
      else .stopped .allocationExhausted := by
  by_cases hlist : e.retained.size = e.handles.capacity ∧ s.listGrows e.handles = false
  · rw [if_pos hlist, (step_listExhausted_iff running s).mpr hlist]
  · rw [if_neg hlist]
    have hn := mt (step_listExhausted_iff running s).mp hlist
    generalize he : e.step s = e' at hn ⊢
    cases he ▸ stepped s e with
    | idle stopped => exact absurd running stopped
    | full _ hr => exact absurd rfl hn
    | refused _ _ _ => rfl
    | served _ _ ha => simp [ha] at h

/-- In any state that calls lead to, whatever the heap answers to the growth of the list: a step
adds its chunk without asking the heap for room. While the exhauster runs its list is full with 0,
4, 8, 16, ... chunks only; the list fails in a step exactly when it is full and refused room, and
then nothing else changes, the record of the requests included; and when the chunk is refused with
the room, the list is what stops the loop if it is full, else the chunk. -/
theorem step_list_growth (a : Allocator σ) (s : σ) (p : Plan)
    (e₀ : Exhauster (σ × List Exchange)) (h : start p (s, []) = .ok e₀) (cs : List Call)
    (g : Handles → Bool) :
    let w : Surroundings (σ × List Exchange) := ⟨a.recorded, g⟩
    let e := calls a.recorded cs e₀
    (∀ granted, e.stepGrowing w granted = some (e.step w)) ∧
    (e.state = .running →
      (e.retained.size = e.handles.capacity ↔ FillsList e.retained.size) ∧
      ((e.step w).state = .stopped .listExhausted ↔
        e.retained.size = e.handles.capacity ∧ g e.handles = false) ∧
      ((e.step w).state = .stopped .listExhausted →
        e.step w = { e with state := .stopped .listExhausted }) ∧
      (g e.handles = false → (a.request e.layout e.allocator.1).1 = none →
        (e.step w).state = .stopped
          (if e.retained.size = e.handles.capacity then .listExhausted
          else .allocationExhausted))) := by
  intro w e
  have hfitted : e.Fitted := calls_keep a.recorded (fun g _ he => he.step ⟨_, g⟩) cs e₀
    (fitted_start h)
  refine ⟨fun granted => stepGrowing_eq w granted e, fun running => ⟨?_, ?_, ?_, ?_⟩⟩
  · exact (hfitted running).full_iff
  · exact step_listExhausted_iff running w
  · exact step_of_listExhausted running
  · intro hg hc
    have hstate := step_state_of_refused (s := w) running hc
    rw [hstate, show w.listGrows e.handles = false from hg]
    by_cases hfull : e.retained.size = e.handles.capacity <;> simp [hfull]

/-- A gate refuses the fifth chunk, when the list is full and refused room: it is the list that
stops the loop, and the gate is not asked. -/
theorem step_list_growth_full :
    let a := (Allocator.ofHeap .roomy).gated
    let w : Surroundings _ := ⟨a.recorded, fun _ => false⟩
    ∃ e₀, start { chunkSize := 16 } ((⟨.upTo 4, 0⟩, ()), []) = .ok e₀ ∧
      ∃ e, e = calls a.recorded (List.replicate 4 (.step fun _ => true)) e₀ ∧
        e.state = .running ∧ (a.request e.layout e.allocator.1).1 = none ∧
        e.retained.size = 4 ∧ FillsList e.retained.size ∧
        e.stepGrowing w false = some (e.step w) ∧
        e.step w = { e with state := .stopped .listExhausted } := by
  intro a w
  have hplan : ∃ e₀, start { chunkSize := 16 }
      (((⟨.upTo 4, 0⟩, ()), []) : (Memory.Gate × Unit) × List Exchange) = .ok e₀ := ⟨_, rfl⟩
  obtain ⟨e₀, he₀⟩ := hplan
  obtain ⟨hadds, hrunning⟩ := step_list_growth a _ _ e₀ he₀
    (List.replicate 4 (.step fun _ => true)) fun _ => false
  refine ⟨e₀, he₀, _, rfl, ?_⟩
  have hstands : let e := calls a.recorded (List.replicate 4 (.step fun _ => true)) e₀
      e.state = .running ∧ e.retained.size = 4 ∧ e.handles.capacity = 4 ∧
        (a.request e.layout e.allocator.1).1 = none := by
    obtain ⟨l, hl, rfl⟩ := start_eq_ok he₀
    cases hl
    decide +kernel
  -- from here on the state is known by these facts alone
  generalize calls a.recorded (List.replicate 4 (.step fun _ => true)) e₀ = e at *
  obtain ⟨running, hsize, hcapacity, hrefused⟩ := hstands
  obtain ⟨hfills, -, hrest, hboth⟩ := hrunning running
  have hfull : e.retained.size = e.handles.capacity := hsize.trans hcapacity.symm
  have hstop := hboth rfl hrefused
  rw [if_pos hfull] at hstop
  exact ⟨running, hrefused, hsize, hfills.mp hfull, hadds false, hrest hstop⟩

end Exhauster
end HeapPressure.Exhaust
