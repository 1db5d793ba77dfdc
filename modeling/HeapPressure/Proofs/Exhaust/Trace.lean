import HeapPressure.Proofs.Exhaust.Calls
import Mathlib.Data.List.Forall2

/-!
What an exhauster holds against what its allocator was asked and answered: every request was
for a chunk of the plan, every chunk handed out is held in its place, and at most the last
request was refused.
-/
namespace HeapPressure.Exhaust

open Memory (Allocator Layout Chunk Exchange)

/-- The chunks handed out, in the order of the requests. -/
def handedOut (asked : List Exchange) : List Chunk := asked.filterMap Prod.snd

def Answered (q : Exchange) : Prop := q.2.isSome = true

theorem handedOut_append (asked more : List Exchange) :
    handedOut (asked ++ more) = handedOut asked ++ handedOut more :=
  List.filterMap_append

theorem length_handedOut {asked : List Exchange} (h : ∀ q ∈ asked, Answered q) :
    (handedOut asked).length = asked.length := by
  induction asked with
  | nil => rfl
  | cons q asked ih =>
    obtain ⟨l, c⟩ := q
    have hq : (c.isSome : Prop) := h (l, c) (by simp)
    obtain ⟨c, rfl⟩ := Option.isSome_iff_exists.mp hq
    have ht := ih fun r hr => h r (List.mem_cons_of_mem _ hr)
    simpa [handedOut] using ht

/-- How a chunk is held: filled over the whole of its own length, or as it was handed out. -/
def HeldAs (p : Plan) (given held : Chunk) : Prop :=
  if p.touchPages then
    held.layout = given.layout ∧ held.contents = some (List.replicate given.len p.fillByte)
  else held = given

namespace Exhauster

variable {σ : Type}

theorem heldAs_touch (p : Plan) (c : Chunk) : HeldAs p c (touch p c) := by
  unfold HeldAs touch
  split
  · exact ⟨rfl, Chunk.contents_fill p.fillByte c⟩
  · rfl

/-- The requests of a recording allocator, the first in front. -/
def asked (e : Exhauster (σ × List Exchange)) : List Exchange := e.allocator.2.reverse

/-- The requests and answers so far account for all that the exhauster holds. -/
structure Accounted (e : Exhauster (σ × List Exchange)) : Prop where
  count : e.asked.length = e.requests
  layouts : ∀ q ∈ e.asked, q.1 = e.layout
  held : e.retained.toList = (handedOut e.asked).map (touch e.plan)
  answered : e.state ≠ .stopped .allocationExhausted → ∀ q ∈ e.asked, Answered q
  refused : e.state = .stopped .allocationExhausted →
    ∃ earlier, e.asked = earlier ++ [(e.layout, none)] ∧ ∀ q ∈ earlier, Answered q

theorem reverse_record {a : Allocator σ} {l : Layout} {s t : σ × List Exchange}
    {c : Option Chunk} (h : a.recorded.request l s = (c, t)) :
    t.2.reverse = s.2.reverse ++ [(l, c)] := by
  have ht := a.recorded_request l s
  rw [h] at ht
  rw [ht, List.reverse_cons]

theorem Accounted.forall_asked {e : Exhauster (σ × List Exchange)} (h : e.Accounted)
    (c : Option Chunk) : ∀ q ∈ e.asked ++ [(e.layout, c)], q.1 = e.layout := by
  intro q hq
  rcases List.mem_append.mp hq with hq | hq
  · exact h.layouts q hq
  · rw [List.mem_singleton.mp hq]

theorem Accounted.step {a : Allocator σ} {e : Exhauster (σ × List Exchange)}
    (h : e.Accounted) (g : Handles → Bool) : (e.step ⟨a.recorded, g⟩).Accounted := by
  generalize he : e.step ⟨a.recorded, g⟩ = e'
  cases he ▸ stepped ⟨a.recorded, g⟩ e with
  | idle stopped => exact h
  | full running hr =>
    have hn : e.state ≠ .stopped .allocationExhausted := by simp [running]
    exact ⟨h.count, h.layouts, h.held, fun _ => h.answered hn, by simp⟩
  | @refused handles t running hr ha =>
    have hn : e.state ≠ .stopped .allocationExhausted := by simp [running]
    have hl : t.2.reverse = e.asked ++ [(e.layout, none)] := reverse_record ha
    refine ⟨?_, ?_, ?_, by simp, fun _ => ⟨e.asked, hl, h.answered hn⟩⟩
    · change t.2.reverse.length = e.requests + 1
      rw [hl, List.length_append, h.count, List.length_singleton]
    · change ∀ q ∈ t.2.reverse, q.1 = e.layout
      exact hl ▸ h.forall_asked none
    · change handles.chunks.toList = (handedOut t.2.reverse).map (touch e.plan)
      rw [hl, handedOut_append, Handles.chunks_of_reserve hr]
      simpa [handedOut] using (show e.handles.chunks.toList = _ from h.held)
  | @served handles c t running hr ha =>
    have hn : e.state ≠ .stopped .allocationExhausted := by simp [running]
    have hl : t.2.reverse = e.asked ++ [(e.layout, some c)] := reverse_record ha
    refine ⟨?_, ?_, ?_, fun _ => ?_, fun hs => absurd hs hn⟩
    · change t.2.reverse.length = e.requests + 1
      rw [hl, List.length_append, h.count, List.length_singleton]
    · change ∀ q ∈ t.2.reverse, q.1 = e.layout
      exact hl ▸ h.forall_asked (some c)
    · change (handles.chunks.push (touch e.plan c)).toList =
        (handedOut t.2.reverse).map (touch e.plan)
      rw [hl, handedOut_append, Handles.chunks_of_reserve hr, Array.toList_push, List.map_append]
      exact congrArg (· ++ [touch e.plan c]) h.held
    · change ∀ q ∈ t.2.reverse, Answered q
      rw [hl]
      intro q hq
      rcases List.mem_append.mp hq with hq | hq
      · exact h.answered hn q hq
      · rw [List.mem_singleton.mp hq]
        exact rfl

theorem accounted_start {p : Plan} {s : σ} {e : Exhauster (σ × List Exchange)}
    (h : start p (s, []) = .ok e) : e.Accounted := by
  obtain ⟨l, -, rfl⟩ := start_eq_ok h
  exact ⟨rfl, by simp [asked], rfl, by simp [asked], by simp⟩

theorem Accounted.length_retained {e : Exhauster (σ × List Exchange)} (h : e.Accounted) :
    e.retained.size = (handedOut e.asked).length := by
  rw [← Array.length_toList, h.held, List.length_map]

theorem Accounted.requests_eq {e : Exhauster (σ × List Exchange)} (h : e.Accounted)
    (hn : e.state ≠ .stopped .allocationExhausted) : e.requests = e.retained.size := by
  rw [h.length_retained, length_handedOut (h.answered hn), h.count]

theorem Accounted.requests_eq_succ {e : Exhauster (σ × List Exchange)} (h : e.Accounted)
    (hs : e.state = .stopped .allocationExhausted) : e.requests = e.retained.size + 1 := by
  obtain ⟨earlier, he, ha⟩ := h.refused hs
  have hc := h.count
  rw [he, List.length_append, List.length_singleton] at hc
  rw [h.length_retained, he, handedOut_append, List.length_append, length_handedOut ha, ← hc]
  rfl

/-- How the requests made compare with the chunks held, for each state. -/
def Ending (e : Exhauster (σ × List Exchange)) : Prop :=
  match e.state with
  | .running | .stopped .listExhausted =>
    e.requests = e.retained.size ∧ ∀ q ∈ e.asked, Answered q
  | .stopped .allocationExhausted =>
    e.requests = e.retained.size + 1 ∧
      ∃ earlier, e.asked = earlier ++ [(e.layout, none)] ∧ ∀ q ∈ earlier, Answered q

theorem Accounted.ending {e : Exhauster (σ × List Exchange)} (h : e.Accounted) : e.Ending := by
  unfold Ending
  split
  · next hs =>
    have hn : e.state ≠ .stopped .allocationExhausted := by simp [hs]
    exact ⟨h.requests_eq hn, h.answered hn⟩
  · next hs =>
    have hn : e.state ≠ .stopped .allocationExhausted := by simp [hs]
    exact ⟨h.requests_eq hn, h.answered hn⟩
  · next hs => exact ⟨h.requests_eq_succ hs, h.refused hs⟩

theorem Accounted.forall₂_heldAs {e : Exhauster (σ × List Exchange)} (h : e.Accounted) :
    List.Forall₂ (HeldAs e.plan) (handedOut e.asked) e.retained.toList := by
  rw [h.held, List.forall₂_map_right_iff, List.forall₂_same]
  exact fun c _ => heldAs_touch e.plan c

/-- After any calls on a fresh exhauster its allocator was asked for each counted request, for a
chunk of the plan each time, and the exhauster holds the chunks handed out. It reports what was
handed out and asked, as long as the bytes can be counted. Without the record the exhauster is the
same. -/
theorem calls_accounted (a : Allocator σ) (s : σ) (p : Plan)
    (e : Exhauster (σ × List Exchange)) (h : start p (s, []) = .ok e) (cs : List Call) :
    let e' := calls a.recorded cs e
    (e'.asked.length = e'.requests ∧
      ∀ q ∈ e'.asked, q.1.size = p.chunkSize ∧ q.1.align = chunkAlign) ∧
    List.Forall₂ (HeldAs p) (handedOut e'.asked) e'.retained.toList ∧
    e'.Ending ∧
    (e'.report =
      if (handedOut e'.asked).length * p.chunkSize < wordBound then
        .ok { chunks := (handedOut e'.asked).length
              chunkSize := p.chunkSize
              bytesRetained := (handedOut e'.asked).length * p.chunkSize
              requests := e'.asked.length
              stopReason := e'.state.reason? }
      else .error .product) ∧
    start p s = .ok (e.mapAllocator Prod.fst) ∧
    e'.mapAllocator Prod.fst = calls a cs (e.mapAllocator Prod.fst) := by
  intro e'
  have hacc : e'.Accounted :=
    calls_keep a.recorded (fun g _ he => he.step g) cs e (accounted_start h)
  have hplan : e'.plan = e.plan := calls_plan _ _ _
  have hlayout : e'.layout = e.layout := calls_layout _ _ _
  obtain ⟨l, hl, he⟩ := start_eq_ok h
  have hp : e'.plan = p := by rw [hplan, he]
  have hsize := p.layout_size hl
  have halign := p.layout_align hl
  refine ⟨⟨hacc.count, fun q hq => ?_⟩, hp ▸ hacc.forall₂_heldAs, hacc.ending, ?_, ?_,
    calls_mapAllocator a.projects_recorded cs e⟩
  · rw [hacc.layouts q hq, hlayout, he]
    exact ⟨hsize, halign⟩
  · have hchunk : e'.layout.size = p.chunkSize := by rw [hlayout, he, ← hsize]
    rw [report_eq, hchunk, hacc.length_retained, hacc.count]
  · rw [start, hl, he]
    rfl

/-- A gate that lets one request through: the chunk is held and filled, the second request is
refused, and the third step asks for nothing. -/
theorem calls_accounted_gated :
    let p : Plan := { chunkSize := 16, touchPages := true }
    let a := (Allocator.ofHeap .roomy).gated
    let cs : List Call :=
      [.step fun _ => true, .report, .step fun _ => true, .step fun _ => true]
    ∃ e, start p ((⟨.upTo 1, 0⟩, ()), []) = .ok e ∧
      List.Forall₂ (HeldAs p) (handedOut (calls a.recorded cs e).asked)
        (calls a.recorded cs e).retained.toList ∧
      (calls a.recorded cs e).requests = 2 ∧ (calls a.recorded cs e).retained.size = 1 := by
  intro p a cs
  have h : ∃ e, start p (((⟨.upTo 1, 0⟩, ()), []) : (Memory.Gate × Unit) × List Exchange) = .ok e :=
    ⟨_, rfl⟩
  obtain ⟨e, he⟩ := h
  refine ⟨e, he, (calls_accounted a _ p e he cs).2.1, ?_⟩
  obtain ⟨l, hl, rfl⟩ := start_eq_ok he
  cases hl
  exact ⟨rfl, rfl⟩

end Exhauster
end HeapPressure.Exhaust
