import HeapPressure.Machine.Host
import HeapPressure.Proofs.Text.Numerals
import Mathlib.Data.List.Infix

/-!
What the harness collects of a process. Its writes are put in the order of their times, those of
one time in the order in which they were made; so whatever cuts a process short, what is collected
of it is the beginning of what it would have written.
-/
namespace HeapPressure.Shell.State

section
variable {α : Type} {le : α → α → Bool} (htrans : ∀ a b c, le a b → le b c → le a c)
  (htotal : ∀ a b, le a b || le b a)

include htrans htotal

/-- Where an element comes in a sorted list: behind what is not above it, in front of the rest. -/
theorem mergeSort_split (a : α) (l : List α) : ∃ front back,
    (a :: l).mergeSort le = front ++ a :: back ∧ l.mergeSort le = front ++ back ∧
      (∀ b ∈ front, le a b = false) ∧ ∀ b ∈ back, le a b = true := by
  obtain ⟨front, back, hall, hrest, hfront⟩ := List.mergeSort_cons htrans htotal a l
  have hsorted := List.pairwise_mergeSort htrans htotal (a :: l)
  rw [hall, List.pairwise_append] at hsorted
  refine ⟨front, back, hall, hrest, fun b hb => by simpa using hfront b hb, fun b hb => ?_⟩
  exact List.rel_of_pairwise_cons hsorted.2.1 hb

/-- It makes no difference whether a list is sorted before some of it is left out or after. -/
theorem filter_mergeSort (p : α → Bool) (l : List α) :
    (l.mergeSort le).filter p = (l.filter p).mergeSort le := by
  induction l with
  | nil => simp
  | cons a l ih =>
    obtain ⟨front, back, hall, hrest, hfront, hback⟩ := mergeSort_split htrans htotal a l
    rw [hall, List.filter_append]
    rw [hrest, List.filter_append] at ih
    by_cases ha : p a = true
    · obtain ⟨front', back', hall', hrest', hfront', hback'⟩ :=
        mergeSort_split htrans htotal a (l.filter p)
      rw [List.filter_cons_of_pos ha, List.filter_cons_of_pos ha, hall']
      rw [hrest'] at ih
      -- Both fronts are what stands before the first element that is not below `a`.
      have htake (xs ys : List α) (hxs : ∀ b ∈ xs, le a b = false) (hys : ∀ b ∈ ys, le a b = true) :
          (xs ++ ys).takeWhile (fun b => !le a b) = xs :=
        Text.takeWhile_append_stop (fun b hb => by simp [hxs b hb])
          fun b hb => by simp [hys b (List.mem_of_mem_head? hb)]
      have hfronts : front.filter p = front' := by
        rw [← htake (front.filter p) (back.filter p)
          (fun b hb => hfront b (List.mem_of_mem_filter hb))
          (fun b hb => hback b (List.mem_of_mem_filter hb)), ih, htake front' back' hfront' hback']
      rw [hfronts] at ih ⊢
      rw [List.append_cancel_left ih]
    · rw [List.filter_cons_of_neg ha, List.filter_cons_of_neg ha, ih]

end

/-- What comes first in a sorted list is what does not exceed a bound. -/
theorem filter_isPrefix_of_pairwise {ws : List Write} (time : Nat)
    (h : ws.Pairwise fun v w => v.time ≤ w.time) :
    ws.filter (fun w => w.time ≤ time) <+: ws := by
  induction ws with
  | nil => exact List.prefix_rfl
  | cons w ws ih =>
    obtain ⟨hw, hws⟩ := List.pairwise_cons.mp h
    by_cases htime : w.time ≤ time
    · rw [List.filter_cons_of_pos (by simpa using htime)]
      exact (List.prefix_cons_inj w).mpr (ih hws)
    · have hnone : (w :: ws).filter (fun w => w.time ≤ time) = [] := by
        rw [List.filter_eq_nil_iff]
        intro v hv
        rcases List.mem_cons.mp hv with rfl | hv
        · simpa using htime
        · have := hw v hv
          simp
          omega
      rw [hnone]
      exact List.nil_prefix

/-- What was written up to a time is the beginning of what was written. -/
theorem bytesOn_filter_isPrefix (stream : Stream) (time : Nat) (ws : List Write) :
    bytesOn stream (ws.filter fun w => w.time ≤ time) <+: bytesOn stream ws := by
  have htrans (a b c : Write) (hab : decide (a.time ≤ b.time)) (hbc : decide (b.time ≤ c.time)) :
      decide (a.time ≤ c.time) := by
    simp only [decide_eq_true_eq] at hab hbc ⊢
    exact Nat.le_trans hab hbc
  have htotal (a b : Write) : decide (a.time ≤ b.time) || decide (b.time ≤ a.time) := by
    simpa using Nat.le_total a.time b.time
  have hsorted := List.pairwise_mergeSort htrans htotal
    (ws.reverse.filter fun w => w.stream == stream)
  simp only [decide_eq_true_eq] at hsorted
  rw [bytesOn, bytesOn, ← List.filter_reverse, List.filter_comm, ← filter_mergeSort htrans htotal]
  exact List.IsPrefix.flatMap (filter_isPrefix_of_pairwise time hsorted) _

end HeapPressure.Shell.State

namespace HeapPressure.Machine

open Harness (Child Launch)
open Shell.State (bytesOn)

/-- What a child was heard to say is the beginning of what its course says. -/
def Course.Heard (course : Course) (c : Child) : Prop :=
  c.stdout <+: bytesOn .output course.written ∧ c.stderr <+: bytesOn .error course.written

theorem Course.heard_childAfter (course : Course) (pauses questions : Nat) (status : Int32) :
    course.Heard (course.childAfter pauses questions status) :=
  ⟨Shell.State.bytesOn_filter_isPrefix _ _ _, Shell.State.bytesOn_filter_isPrefix _ _ _⟩

/-- However long the harness waits, it hears the beginning of what the process says. -/
theorem Course.heard_child (course : Course) (timeoutMillis : Nat) :
    course.Heard (course.child timeoutMillis) := by
  let overdue := pausesFor timeoutMillis
  have hkilled : course.Heard (if overdue ≤ maxQuestions then
      course.childAfter overdue (overdue + 1) (signalled Shell.Signal.kill)
    else
      { answers := [], clock := [], stdout := [], stderr := [], wallTimeMillis := 0 }) := by
    split
    · exact course.heard_childAfter _ _ _
    · exact ⟨List.nil_prefix, List.nil_prefix⟩
  rw [child]
  split
  · exact hkilled
  · next time status hend =>
    dsimp only
    split
    · exact course.heard_childAfter _ _ _
    · exact hkilled

/-- That is so of every program that is started. -/
theorem heard_of_start {m : Machine} {l : Launch} {c : Child} (h : m.start l = .ok c) :
    ∃ program, m.files.findProgram l.program = .ok program ∧ (m.course program l).Heard c := by
  rw [start] at h
  split at h
  · cases h
  · split at h
    · cases h
    · next program hprogram =>
      split at h
      · cases h
      · cases h
        exact ⟨program, hprogram, (m.course program l).heard_child l.timeoutMillis⟩

end HeapPressure.Machine
