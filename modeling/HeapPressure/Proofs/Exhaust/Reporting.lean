import HeapPressure.Proofs.Exhaust.Depletion
import Mathlib.Algebra.Order.BigOperators.Group.List
import Mathlib.Algebra.Order.Group.Nat

/-!
The report of an exhauster, whose bytes are counted in a word. The product takes the size asked
for, and the memory there is bounds the chunks that came, so it fits as long as no chunk is shorter
than asked for; where chunks are shorter it need not fit, and then there is no report.
-/
namespace HeapPressure

namespace Memory

namespace Allocator

variable {σ : Type} {a : Allocator σ} {s : σ}

/-- The chunk, if there is one, is as long as asked for. -/
def Suffices (l : Layout) (answer : Option Chunk) : Prop := ∀ c ∈ answer, l.size ≤ c.len

/-- From the state `s` on, whatever is asked for, no chunk is shorter. -/
def NeverShort (a : Allocator σ) (s : σ) : Prop :=
  ∀ ls, List.Forall₂ Suffices ls (a.requestAll ls s).1

theorem NeverShort.request (h : a.NeverShort s) (l : Layout) :
    Suffices l (a.request l s).1 ∧ a.NeverShort (a.request l s).2 :=
  ⟨(List.forall₂_cons.mp (h [l])).1, fun ls => (List.forall₂_cons.mp (h (l :: ls))).2⟩

/-- What holds of the state, if requests keep it and their answers suffice while it holds. -/
theorem neverShort_of_kept {I : σ → Prop}
    (hkept : ∀ l s, I s → Suffices l (a.request l s).1 ∧ I (a.request l s).2) (hs : I s) :
    a.NeverShort s := by
  intro ls
  induction ls generalizing s with
  | nil => exact .nil
  | cons l ls ih =>
    obtain ⟨hl, hnext⟩ := hkept l s hs
    exact .cons hl (ih hnext)

end Allocator

namespace Stack

open Allocator (Suffices)

/-- No scale on the stack makes requests smaller. -/
def Stretches : Stack → Prop
  | .heap => True
  | .capped _ inner => inner.Stretches
  | .gated _ inner => inner.Stretches
  | .scaled mul div inner => 0 < div ∧ div ≤ mul ∧ inner.Stretches

theorem request_stretches (h : Heap) (l : Layout) (s : Stack) (hs : s.Stretches) :
    Suffices l (request h l s).1 ∧ (request h l s).2.Stretches := by
  induction s generalizing l with
  | heap =>
    refine ⟨?_, hs⟩
    intro c hc
    exact Nat.le_of_eq (Heap.allocate_len hc).symm
  | capped b inner ih =>
    rw [request]
    split
    · exact ih l hs
    · exact ⟨by simp [Suffices], hs⟩
  | gated g inner ih =>
    rw [request]
    split
    · exact ih l hs
    · exact ⟨by simp [Suffices], hs⟩
  | scaled mul div inner ih =>
    obtain ⟨hpos, hle, hinner⟩ := hs
    rw [request]
    split
    · next l' hl' =>
      obtain ⟨hchunk, hkept⟩ := ih l' hinner
      have hsize : l.size ≤ l'.size := by
        rw [Layout.ofSizeAlign?_size hl', Nat.le_div_iff_mul_le hpos]
        exact Nat.mul_le_mul_left l.size hle
      exact ⟨fun c hc => Nat.le_trans hsize (hchunk c hc), hpos, hle, hkept⟩
    · exact ⟨by simp [Suffices], hpos, hle, hinner⟩

theorem neverShort_of_stretches (h : Heap) {s : Stack} (hs : s.Stretches) :
    (allocator h).NeverShort s :=
  Allocator.neverShort_of_kept (request_stretches h) hs

end Stack
end Memory

namespace Exhaust

open Memory (Allocator Chunk)

namespace Exhauster

variable {σ : Type} {e : Exhauster σ}

/-- Every chunk held is as long as asked for. -/
def Whole (e : Exhauster σ) : Prop := ∀ c ∈ e.retained.toList, e.layout.size ≤ c.len

theorem Whole.product_le (h : e.Whole) : e.retained.size * e.layout.size ≤ e.bytesHeld := by
  have hlens : ∀ n ∈ e.retained.toList.map Chunk.len, e.layout.size ≤ n := by
    simpa [Whole] using h
  simpa [bytesHeld] using List.card_nsmul_le_sum _ _ hlens

/-- What is held is whole, and what will come is. -/
structure StaysWhole (a : Allocator σ) (e : Exhauster σ) : Prop where
  whole : e.Whole
  answers : a.NeverShort e.allocator

theorem staysWhole_start {a : Allocator σ} {p : Plan} {s : σ} (h : start p s = .ok e)
    (hs : a.NeverShort s) : e.StaysWhole a := by
  obtain ⟨l, -, rfl⟩ := start_eq_ok h
  exact ⟨by simp [Whole, retained], hs⟩

theorem StaysWhole.step {a : Allocator σ} (h : e.StaysWhole a) (g : Handles → Bool) :
    (e.step ⟨a, g⟩).StaysWhole a := by
  obtain ⟨hanswer, hnext⟩ := h.answers.request e.layout
  generalize he : e.step ⟨a, g⟩ = e'
  cases he ▸ stepped ⟨a, g⟩ e with
  | idle stopped => exact h
  | full running hr => exact ⟨h.whole, h.answers⟩
  | @refused handles t running hr ha =>
    have hretained : handles.chunks = e.retained := Handles.chunks_of_reserve hr
    refine ⟨?_, ?_⟩
    · simpa [Whole, retained, hretained] using h.whole
    · have ht : (a.request e.layout e.allocator).2 = t := congrArg Prod.snd ha
      exact ht ▸ hnext
  | @served handles c t running hr ha =>
    have hretained : handles.chunks = e.retained := Handles.chunks_of_reserve hr
    have hc : (a.request e.layout e.allocator).1 = some c := congrArg Prod.fst ha
    have ht : (a.request e.layout e.allocator).2 = t := congrArg Prod.snd ha
    refine ⟨?_, ht ▸ hnext⟩
    simp only [Whole, retained, Handles.push, hretained, Array.toList_push, List.mem_append,
      List.mem_singleton]
    rintro d (hd | rfl)
    · exact h.whole d hd
    · rw [len_touch]
      exact hanswer c hc

theorem calls_staysWhole {a : Allocator σ} (h : e.StaysWhole a) (cs : List Call) :
    (calls a cs e).StaysWhole a :=
  calls_keep a (fun g _ he => he.step g) cs e h

/-- The product is at most what is held, so that it fits where that does. -/
theorem Whole.report_eq (h : e.Whole) (hheld : e.bytesHeld < wordBound) : e.report =
    .ok { chunks := e.retained.size
          chunkSize := e.layout.size
          bytesRetained := e.retained.size * e.layout.size
          requests := e.requests
          stopReason := e.state.reason? } := by
  rw [Exhauster.report_eq, if_pos (Nat.lt_of_le_of_lt h.product_le hheld)]

theorem plan_of_start {p : Plan} {s : σ} {e : Exhauster σ} (h : start p s = .ok e) :
    1 ≤ p.chunkSize ∧ p.chunkSize ≤ 0x7ffffffffffffff8 := by
  obtain ⟨hsize, hpos⟩ := layout_size_of_start h
  obtain ⟨l, hl, rfl⟩ := start_eq_ok h
  have hfits := l.fits
  have halign := p.layout_align hl
  have hsize : l.size = p.chunkSize := hsize
  have hpos : 0 < l.size := hpos
  simp only [Memory.objectBound, halign, chunkAlign] at hfits
  omega

/-- An allocator that never comes short: after any calls, as long as the bytes that are held can be
counted in a word, the product of the report fits as well, and there is a report that is exact. The
same goes for any allocator as long as the chunks that are held are whole. -/
theorem report_exact (a : Allocator σ) (p : Plan) (s : σ) (e : Exhauster σ)
    (he : start p s = .ok e) (cs : List Call) :
    let e' := calls a cs e
    (1 ≤ p.chunkSize ∧ p.chunkSize ≤ 0x7ffffffffffffff8) ∧
    (a.NeverShort s → ∀ c ∈ e'.retained.toList, p.chunkSize ≤ c.len) ∧
    ((∀ c ∈ e'.retained.toList, p.chunkSize ≤ c.len) → e'.bytesHeld < wordBound →
      e'.retained.size * p.chunkSize ≤ e'.bytesHeld ∧
      e'.retained.size * p.chunkSize < wordBound ∧
      e'.report = .ok ⟨e'.retained.size, p.chunkSize, e'.retained.size * p.chunkSize, e'.requests,
        e'.state.reason?⟩) := by
  intro e'
  have hlayout : e'.layout.size = p.chunkSize :=
    (congrArg Memory.Layout.size (calls_layout a cs e)).trans (layout_size_of_start he).1
  refine ⟨plan_of_start he, fun hs => ?_, fun hwhole hheld => ?_⟩
  · have hstays : e'.StaysWhole a := calls_staysWhole (staysWhole_start he hs) cs
    rw [← hlayout]
    exact hstays.whole
  · rw [← hlayout] at hwhole ⊢
    have hle := Whole.product_le hwhole
    exact ⟨hle, Nat.lt_of_le_of_lt hle hheld, Whole.report_eq hwhole hheld⟩

/-- Chunks of twice the size asked for, from a budget of a hundred bytes: three of them come for
requests of sixteen. -/
theorem report_exact_doubled :
    let s := Surroundings.ofStack .roomy true
    let stack := Memory.Stack.capped ⟨100, 0⟩ (.scaled 2 1 .heap)
    s.allocator.NeverShort stack ∧ ∃ e, start { chunkSize := 16 } stack = .ok e ∧
      (e.run s).bytesHeld = 96 ∧ 96 < wordBound ∧
      (e.run s).report = .ok ⟨3, 16, 3 * 16, 4, some .allocationExhausted⟩ := by
  intro s stack
  have hshort : s.allocator.NeverShort stack :=
    Memory.Stack.neverShort_of_stretches .roomy ⟨by decide, by decide, trivial⟩
  have hplan : ∃ e, start { chunkSize := 16 } stack = .ok e := ⟨_, rfl⟩
  obtain ⟨e, he⟩ := hplan
  have hfour : (e.steps s 4).isStopped = true ∧ (e.steps s 4).bytesHeld = 96 ∧
      (e.steps s 4).requests = 4 ∧ (e.steps s 4).retained.size = 3 ∧
      (e.steps s 4).state.reason? = some .allocationExhausted := by
    obtain ⟨l, hl, rfl⟩ := start_eq_ok he
    cases hl
    decide +kernel
  obtain ⟨hstopped, hheld, hrequests, hsize, hreason⟩ := hfour
  have hrun : e.run s = e.steps s 4 := run_eq_of_isStopped hstopped (by decide)
  obtain ⟨-, hwhole, hexact⟩ := report_exact s.allocator _ stack e he [.run fun _ => true]
  have hcalls : calls s.allocator [.run fun _ => true] e = e.steps s 4 := hrun
  rw [hcalls] at hwhole hexact
  obtain ⟨-, -, hreport⟩ := hexact (hwhole hshort) (by rw [hheld]; decide)
  rw [hsize, hrequests, hreason] at hreport
  exact ⟨hshort, e, he, hrun ▸ hheld, by decide, hrun ▸ hreport⟩

/-- Four bytes for each request of two to the power of 62: after four of them the product is two to
the power of 64. The run ends without a report, with sixteen bytes held. -/
theorem report_overflows :
    let s := Surroundings.ofStack .roomy true
    let stack := Memory.Stack.gated ⟨.upTo 4, 0⟩ (.scaled 1 0x1000000000000000 .heap)
    ∃ e, start { chunkSize := 0x4000000000000000 } stack = .ok e ∧
      (e.run s).isStopped = true ∧ (e.run s).bytesHeld = 16 ∧ (e.run s).requests = 5 ∧
      (e.run s).retained.size * 0x4000000000000000 = wordBound ∧
      (e.run s).report = .error .product := by
  intro s stack
  have hplan : ∃ e, start { chunkSize := 0x4000000000000000 } stack = .ok e := ⟨_, rfl⟩
  obtain ⟨e, he⟩ := hplan
  have hfive : (e.steps s 5).isStopped = true ∧ (e.steps s 5).bytesHeld = 16 ∧
      (e.steps s 5).requests = 5 ∧
      (e.steps s 5).retained.size * 0x4000000000000000 = wordBound := by
    obtain ⟨l, hl, rfl⟩ := start_eq_ok he
    cases hl
    decide +kernel
  have hrun : e.run s = e.steps s 5 := run_eq_of_isStopped hfive.1 (by decide)
  obtain ⟨hstopped, hheld, hrequests, hproduct⟩ := hrun ▸ hfive
  refine ⟨e, he, hstopped, hheld, hrequests, hproduct, ?_⟩
  have hsize : (e.run s).layout.size = 0x4000000000000000 := by
    rw [run_layout]
    exact (layout_size_of_start he).1
  rw [Exhauster.report_eq, hsize, hproduct]
  exact if_neg (Nat.lt_irrefl _)

end Exhauster
end Exhaust
end HeapPressure
