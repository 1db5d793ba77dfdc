import HeapPressure.Harness.Watch

/-!
How a watch ends: with the first answer that is final, and in any case when there is one and the
clock goes on long enough.
-/
namespace HeapPressure.Harness

/-- An answer after which nothing more is asked. -/
def Answer.isEnd : Answer → Bool
  | .reaped _ _ => true
  | .failed _ => true
  | _ => false

/-- What a watch makes of the answer that ends it. -/
inductive Answer.EndsAs : Answer → Except SystemError (Reaped × Bool) → Prop where
  | reaped {status : Int32} {counts : ResourceCounts} {timedOut : Bool} :
      EndsAs (.reaped status counts) (.ok (⟨status, .ofCounts counts⟩, timedOut))
  | failed {e : SystemError} : EndsAs (.failed e) (.error e)

namespace Watch

variable {timeout : Nat} {blocking : Bool} {answers : List Answer} {clock : List Nat} {w : Watch}
  {answer : Answer}

theorem exists_before {acts : List Act} {o : Option Watch} (h : ∃ w, o = some w) :
    ∃ w, o.map (before acts) = some w := by
  obtain ⟨w, rfl⟩ := h
  exact ⟨_, rfl⟩

/-- A question that is not the last takes one answer and one reading at most. -/
theorem run_ends (hend : ∃ e ∈ answers, e.isEnd = true) (hclock : answers.length ≤ clock.length) :
    ∃ w, run timeout blocking answers clock = some w := by
  induction answers generalizing blocking clock with
  | nil => simp at hend
  | cons answer answers ih =>
    cases answer with
    | reaped | failed => exact ⟨_, rfl⟩
    | interrupted =>
      have hend : ∃ e ∈ answers, e.isEnd = true := by simpa [Answer.isEnd] using hend
      exact exists_before (ih hend (Nat.le_of_succ_le hclock))
    | running =>
      have hend : ∃ e ∈ answers, e.isEnd = true := by simpa [Answer.isEnd] using hend
      cases blocking with
      | true => exact exists_before (ih hend (Nat.le_of_succ_le hclock))
      | false =>
        cases clock with
        | nil => simp at hclock
        | cons now clock =>
          have hclock := Nat.le_of_succ_le_succ hclock
          simp only [run, Bool.false_eq_true, if_false]
          split <;> exact exists_before (ih hend hclock)

theorem result_of_before {acts : List Act} {o : Option Watch} (h : o.map (before acts) = some w) :
    ∃ w', o = some w' ∧ w'.result = w.result := by
  obtain ⟨w', hw', rfl⟩ := Option.map_eq_some_iff.mp h
  exact ⟨w', hw', rfl⟩

/-- Until the answer that ends it a watch goes on and leaves its result to the rest. -/
theorem run_step (hanswer : answer.isEnd = false)
    (h : run timeout blocking (answer :: answers) clock = some w) :
    ∃ blocking clock w', run timeout blocking answers clock = some w' ∧ w'.result = w.result := by
  cases answer with
  | reaped | failed => cases hanswer
  | interrupted => exact ⟨_, _, result_of_before h⟩
  | running =>
    cases blocking with
    | true => exact ⟨_, _, result_of_before h⟩
    | false =>
      cases clock with
      | nil => cases h
      | cons now clock =>
        simp only [run, Bool.false_eq_true, if_false] at h
        split at h <;> exact ⟨_, _, result_of_before h⟩

theorem run_endsAs (h : run timeout blocking answers clock = some w) :
    ∃ a, answers.find? Answer.isEnd = some a ∧ a.EndsAs w.result := by
  induction answers generalizing blocking clock w with
  | nil => cases h
  | cons answer answers ih =>
    cases hanswer : answer.isEnd with
    | false =>
      obtain ⟨_, _, w', hrun, hresult⟩ := run_step hanswer h
      obtain ⟨a, ha, hends⟩ := ih hrun
      exact ⟨a, by rw [List.find?_cons_of_neg (by simp [hanswer]), ha], hresult ▸ hends⟩
    | true =>
      refine ⟨answer, List.find?_cons_of_pos hanswer, ?_⟩
      cases answer with
      | reaped | failed =>
        cases h
        constructor
      | running | interrupted => cases hanswer

theorem noticedTimeout_before (acts : List Act) (w : Watch) :
    (before acts w).noticedTimeout = (acts.contains .killedGroup || w.noticedTimeout) := by
  simp [noticedTimeout, before]

/-- A watch that polls, and does not notice the timeout, never says that it was due to it. -/
theorem timedOut_of_not_noticed {reaped : Reaped} {timedOut : Bool}
    (h : run timeout false answers clock = some w) (hw : w.noticedTimeout = false)
    (hresult : w.result = .ok (reaped, timedOut)) : timedOut = false := by
  induction answers generalizing clock w with
  | nil => cases h
  | cons answer answers ih =>
    cases answer with
    | reaped status counts =>
      cases h
      cases hresult
      rfl
    | failed e =>
      cases h
      cases hresult
    | interrupted =>
      obtain ⟨w', hw', rfl⟩ := Option.map_eq_some_iff.mp h
      rw [noticedTimeout_before] at hw
      exact ih hw' (Bool.or_eq_false_iff.mp hw).2 hresult
    | running =>
      cases clock with
      | nil => cases h
      | cons now clock =>
        simp only [run, Bool.false_eq_true, if_false] at h
        split at h
        · -- the group was killed, which is to notice the timeout
          obtain ⟨w', hw', rfl⟩ := Option.map_eq_some_iff.mp h
          simp [noticedTimeout_before] at hw
        · obtain ⟨w', hw', rfl⟩ := Option.map_eq_some_iff.mp h
          rw [noticedTimeout_before] at hw
          exact ih hw' (Bool.or_eq_false_iff.mp hw).2 hresult

/-- The child is reaped by a poll, if no reading of the clock before it is beyond the timeout. -/
theorem run_reaped_in_time {n : Nat} {status : Int32} {counts : ResourceCounts}
    (hlength : clock.length = n) (hclock : ∀ now ∈ clock, now ≤ timeout) :
    ∃ w, run timeout false (List.replicate n .running ++ [.reaped status counts]) clock = some w ∧
      w.noticedTimeout = false := by
  induction n generalizing clock with
  | zero => exact ⟨_, rfl, rfl⟩
  | succ n ih =>
    cases clock with
    | nil => simp at hlength
    | cons now clock =>
      obtain ⟨hnow, hrest⟩ := List.forall_mem_cons.mp hclock
      obtain ⟨w, hw, hnoticed⟩ := ih (Nat.succ.inj hlength) hrest
      refine ⟨before [.asked false .running, .readClock now, .slept] w, ?_, ?_⟩
      · have hlate : ¬now > timeout := Nat.not_lt.mpr hnow
        simp [List.replicate_succ, run, hlate, hw]
      · simp [noticedTimeout_before, hnoticed]

end Watch

end HeapPressure.Harness
