import HeapPressure.Exhaust.Exhauster
import HeapPressure.Proofs.Memory.Requests

/-!
The calls that a caller makes on an exhauster, one after another. What a step keeps, every
sequence of calls keeps, however the heap answers the growth of the list meanwhile.
-/
namespace HeapPressure.Exhaust

open Memory (Allocator Layout Chunk)

theorem Plan.layout_eq {p : Plan} {l : Layout} (h : p.layout = .ok l) :
    Layout.ofSizeAlign? p.chunkSize chunkAlign = some l := by
  unfold Plan.layout at h
  split at h
  · cases h
  · split at h
    · next hl => cases h; exact hl
    · cases h

theorem Plan.layout_size {p : Plan} {l : Layout} (h : p.layout = .ok l) : l.size = p.chunkSize :=
  Layout.ofSizeAlign?_size (layout_eq h)

theorem Plan.layout_align {p : Plan} {l : Layout} (h : p.layout = .ok l) : l.align = chunkAlign :=
  Layout.ofSizeAlign?_align (layout_eq h)

theorem Plan.chunkSize_pos {p : Plan} {l : Layout} (h : p.layout = .ok l) :
    0 < p.chunkSize := by
  unfold Plan.layout at h
  split at h
  · cases h
  · omega

namespace Exhauster

variable {σ τ : Type}

theorem len_touch (p : Plan) (c : Chunk) : (touch p c).len = c.len := by
  unfold touch
  split
  · exact c.len_fill p.fillByte
  · rfl

theorem isStopped_eq_true {e : Exhauster σ} : e.isStopped = true ↔ e.state ≠ .running := by
  simp [isStopped]

theorem isStopped_eq_false {e : Exhauster σ} : e.isStopped = false ↔ e.state = .running := by
  simp [isStopped]

theorem report_eq (e : Exhauster σ) : e.report =
    if e.retained.size * e.layout.size < wordBound then
      .ok { chunks := e.retained.size
            chunkSize := e.layout.size
            bytesRetained := e.retained.size * e.layout.size
            requests := e.requests
            stopReason := e.state.reason? }
    else .error .product := by
  rw [report, checkedMul]
  split <;> rfl

/-- All that a step can do: nothing after the stop; else the list cannot grow, or the request
is refused, or it is served. -/
inductive Stepped (s : Surroundings σ) (e : Exhauster σ) : Exhauster σ → Prop where
  | idle (stopped : e.state ≠ .running) : Stepped s e e
  | full (running : e.state = .running)
      (hr : e.handles.reserve (s.listGrows e.handles) = none) :
      Stepped s e { e with state := .stopped .listExhausted }
  | refused {handles : Handles} {t : σ} (running : e.state = .running)
      (hr : e.handles.reserve (s.listGrows e.handles) = some handles)
      (ha : s.allocator.request e.layout e.allocator = (none, t)) :
      Stepped s e { e with
        allocator := t
        handles
        requests := e.requests + 1
        state := .stopped .allocationExhausted }
  | served {handles : Handles} {c : Chunk} {t : σ} (running : e.state = .running)
      (hr : e.handles.reserve (s.listGrows e.handles) = some handles)
      (ha : s.allocator.request e.layout e.allocator = (some c, t)) :
      Stepped s e { e with
        allocator := t
        handles := handles.push (Handles.hasRoom_of_reserve hr) (touch e.plan c)
        requests := e.requests + 1 }

theorem stepped (s : Surroundings σ) (e : Exhauster σ) : Stepped s e (e.step s) := by
  unfold step
  split
  · next h => exact .idle (isStopped_eq_true.mp h)
  · next h =>
    have running : e.state = .running := isStopped_eq_false.mp (by simpa using h)
    split
    · next hr => exact .full running hr
    · next handles hr =>
      split
      · next c t ha => exact .served running hr ha
      · next t ha => exact .refused running hr ha

theorem Stepped.unique {s : Surroundings σ} {e e' e'' : Exhauster σ} (h' : Stepped s e e')
    (h'' : Stepped s e e'') : e' = e'' := by
  cases h' with
  | idle stopped => cases h'' <;> first | rfl | contradiction
  | full running hr => cases h'' <;> simp_all
  | refused running hr ha => cases h'' <;> simp_all
  | served running hr ha =>
    cases h'' with
    | idle stopped => contradiction
    | full _ hr' => simp [hr'] at hr
    | refused _ _ ha' => simp [ha'] at ha
    | served _ hr' ha' =>
      cases hr.symm.trans hr'
      cases ha.symm.trans ha'
      rfl

theorem Stepped.step_eq {s : Surroundings σ} {e e' : Exhauster σ} (h : Stepped s e e') :
    e.step s = e' :=
  (stepped s e).unique h

theorem step_plan (s : Surroundings σ) (e : Exhauster σ) : (e.step s).plan = e.plan := by
  generalize h : e.step s = e'
  cases h ▸ stepped s e <;> rfl

theorem step_layout (s : Surroundings σ) (e : Exhauster σ) : (e.step s).layout = e.layout := by
  generalize h : e.step s = e'
  cases h ▸ stepped s e <;> rfl

/-- A fresh exhauster runs, holds nothing and has asked for nothing. -/
theorem start_eq_ok {p : Plan} {s : σ} {e : Exhauster σ} (h : start p s = .ok e) :
    ∃ l, p.layout = .ok l ∧ e = { plan := p, layout := l, allocator := s } := by
  unfold start at h
  cases hl : p.layout with
  | error x => simp [hl, Except.map] at h
  | ok l =>
    refine ⟨l, rfl, ?_⟩
    simpa [hl, Except.map] using h.symm

theorem layout_size_of_start {p : Plan} {s : σ} {e : Exhauster σ} (h : start p s = .ok e) :
    e.layout.size = p.chunkSize ∧ 0 < e.layout.size := by
  obtain ⟨l, hl, rfl⟩ := start_eq_ok h
  have hsize : l.size = p.chunkSize := p.layout_size hl
  exact ⟨hsize, hsize ▸ Plan.chunkSize_pos hl⟩

/-- The default plan is accepted. -/
theorem exists_start (s : σ) : ∃ e, start {} s = .ok e := ⟨_, rfl⟩

/-- A call, with the heap's answers to the growth of the list while it lasts. The list is longer
at every turn of a run, so any turn may be refused. -/
inductive Call where
  | step (listGrows : Handles → Bool)
  | run (listGrows : Handles → Bool)
  | report

def Call.perform (a : Allocator σ) : Call → Exhauster σ → Exhauster σ
  | .step g, e => e.step ⟨a, g⟩
  | .run g, e => e.run ⟨a, g⟩
  | .report, e => e

/-- The calls in turn, on one exhauster over the allocator `a`. -/
def calls (a : Allocator σ) : List Call → Exhauster σ → Exhauster σ
  | [], e => e
  | c :: cs, e => calls a cs (c.perform a e)

theorem runWithin_keeps {P : Exhauster σ → Prop} (s : Surroundings σ)
    (hstep : ∀ e, P e → P (e.step s)) (n : Nat) (e : Exhauster σ) (h : P e) :
    P (e.runWithin s n) := by
  induction n generalizing e with
  | zero => exact h
  | succ n ih =>
    simp only [runWithin]
    split
    · exact hstep e h
    · exact ih _ (hstep e h)

/-- What every step keeps holds after any calls. -/
theorem calls_keep {P : Exhauster σ → Prop} (a : Allocator σ)
    (hstep : ∀ g e, P e → P (e.step ⟨a, g⟩)) (cs : List Call) (e : Exhauster σ) (h : P e) :
    P (calls a cs e) := by
  induction cs generalizing e with
  | nil => exact h
  | cons c cs ih =>
    apply ih
    cases c with
    | step g => exact hstep g e h
    | run g => exact runWithin_keeps _ (hstep g) _ e h
    | report => exact h

theorem calls_plan (a : Allocator σ) (cs : List Call) (e : Exhauster σ) :
    (calls a cs e).plan = e.plan :=
  calls_keep (P := fun e' => e'.plan = e.plan) a (fun _ _ h => (step_plan _ _).trans h) cs e rfl

theorem calls_layout (a : Allocator σ) (cs : List Call) (e : Exhauster σ) :
    (calls a cs e).layout = e.layout :=
  calls_keep (P := fun e' => e'.layout = e.layout) a (fun _ _ h => (step_layout _ _).trans h) cs e
    rfl

/-- The exhauster with its allocator's state seen through `f`. -/
def mapAllocator (f : σ → τ) (e : Exhauster σ) : Exhauster τ :=
  { e with allocator := f e.allocator }

variable {a : Allocator σ} {b : Allocator τ} {f : σ → τ}

theorem step_mapAllocator (hf : Allocator.Projects f a b) (g : Handles → Bool) (e : Exhauster σ) :
    (e.step ⟨a, g⟩).mapAllocator f = (e.mapAllocator f).step ⟨b, g⟩ := by
  have hb := hf e.layout e.allocator
  generalize he : e.step ⟨a, g⟩ = e'
  have hs : Stepped ⟨a, g⟩ e e' := he ▸ stepped _ e
  symm
  apply Stepped.step_eq
  cases hs with
  | idle stopped => exact .idle stopped
  | full running hr => exact .full running hr
  | refused running hr ha =>
    have hb' := hb.trans (congrArg (fun r => (r.1, f r.2)) ha)
    exact .refused running hr hb'
  | served running hr ha =>
    have hb' := hb.trans (congrArg (fun r => (r.1, f r.2)) ha)
    exact Stepped.served (s := ⟨b, g⟩) (e := e.mapAllocator f) running hr hb'

theorem runWithin_mapAllocator (hf : Allocator.Projects f a b) (g : Handles → Bool) (n : Nat)
    (e : Exhauster σ) :
    (e.runWithin ⟨a, g⟩ n).mapAllocator f = (e.mapAllocator f).runWithin ⟨b, g⟩ n := by
  induction n generalizing e with
  | zero => rfl
  | succ n ih =>
    simp only [runWithin, ← step_mapAllocator hf]
    split
    · next h => exact (if_pos h).symm
    · next h => exact (ih _).trans (if_neg h).symm

theorem calls_mapAllocator (hf : Allocator.Projects f a b) (cs : List Call) (e : Exhauster σ) :
    (calls a cs e).mapAllocator f = calls b cs (e.mapAllocator f) := by
  induction cs generalizing e with
  | nil => rfl
  | cons c cs ih =>
    have hc : (c.perform a e).mapAllocator f = c.perform b (e.mapAllocator f) := by
      cases c with
      | step g => exact step_mapAllocator hf g e
      | run g => exact runWithin_mapAllocator hf g _ e
      | report => rfl
    rw [calls, calls, ih, hc]

end Exhauster
end HeapPressure.Exhaust
