import HeapPressure.Proofs.Exhaust.Calls

/-!
The stop of an exhauster. It is final, whatever is called afterwards and whatever the heap would
answer then; so a run is a number of steps, and does not depend on where it is cut into calls.
-/
namespace HeapPressure.Exhaust.Exhauster

open Memory (Allocator)

variable {σ : Type} {e : Exhauster σ}

theorem step_of_isStopped (h : e.isStopped = true) (s : Surroundings σ) : e.step s = e := by
  rw [step, if_pos h]

theorem steps_of_isStopped (h : e.isStopped = true) (s : Surroundings σ) (n : Nat) :
    e.steps s n = e := by
  induction n with
  | zero => rfl
  | succ n ih => rw [steps, step_of_isStopped h, ih]

theorem steps_add (s : Surroundings σ) (m n : Nat) (e : Exhauster σ) :
    e.steps s (m + n) = (e.steps s m).steps s n := by
  induction m generalizing e with
  | zero => rw [Nat.zero_add, steps]
  | succ m ih => rw [Nat.add_right_comm, steps, ih, steps]

/-- Steps after the stop change nothing, so that a run need not notice it. -/
theorem runWithin_eq_steps (s : Surroundings σ) (n : Nat) (e : Exhauster σ) :
    e.runWithin s n = e.steps s n := by
  induction n generalizing e with
  | zero => rfl
  | succ n ih =>
    rw [runWithin, steps]
    by_cases h : (e.step s).isStopped = true
    · rw [if_pos h, steps_of_isStopped h]
    · rw [if_neg h, ih]

theorem run_eq_steps (s : Surroundings σ) (e : Exhauster σ) : e.run s = e.steps s requestBound :=
  runWithin_eq_steps s requestBound e

theorem steps_succ (s : Surroundings σ) (n : Nat) (e : Exhauster σ) :
    e.steps s (n + 1) = (e.steps s n).step s :=
  steps_add s n 1 e

/-- A step that does not stop the loop has obtained a chunk. -/
theorem step_running {s : Surroundings σ} {e : Exhauster σ} (h : (e.step s).state = .running) :
    e.state = .running ∧ (e.step s).retained.size = e.retained.size + 1 ∧
      (e.step s).requests = e.requests + 1 := by
  generalize he : e.step s = e' at h ⊢
  cases he ▸ stepped s e with
  | idle stopped => exact absurd h stopped
  | full running hr => cases h
  | refused running hr ha => cases h
  | @served handles c t running hr ha =>
    have hsize : handles.chunks.size = e.retained.size :=
      congrArg Array.size (Handles.chunks_of_reserve hr)
    refine ⟨running, ?_, rfl⟩
    simp only [retained, Handles.push, Array.size_push]
    exact congrArg (· + 1) hsize

theorem steps_running {s : Surroundings σ} {e : Exhauster σ} {n : Nat}
    (h : (e.steps s n).state = .running) :
    (e.steps s n).retained.size = e.retained.size + n ∧
      (e.steps s n).requests = e.requests + n := by
  induction n with
  | zero => exact ⟨rfl, rfl⟩
  | succ n ih =>
    rw [steps_succ] at h ⊢
    obtain ⟨running, hsize, hrequests⟩ := step_running h
    obtain ⟨hsizes, hall⟩ := ih running
    omega

/-- A step that stops the loop adds nothing to the list, and takes nothing out of it. -/
theorem step_retained_of_stopped {s : Surroundings σ} {e : Exhauster σ}
    (h : (e.step s).state ≠ .running) : (e.step s).retained = e.retained := by
  generalize he : e.step s = e' at h ⊢
  cases he ▸ stepped s e with
  | idle stopped => rfl
  | full running hr => rfl
  | refused running hr ha => exact Handles.chunks_of_reserve hr
  | served running hr ha => exact absurd running h

/-- From the step that stops it on, an exhauster is what its run makes of it. -/
theorem steps_of_le {s : Surroundings σ} {n m : Nat} (h : (e.steps s n).isStopped = true)
    (hm : n ≤ m) : e.steps s m = e.steps s n := by
  obtain ⟨k, rfl⟩ := Nat.exists_eq_add_of_le hm
  rw [steps_add, steps_of_isStopped h]

theorem run_eq_of_isStopped {s : Surroundings σ} {n : Nat} (h : (e.steps s n).isStopped = true)
    (hn : n ≤ requestBound) : e.run s = e.steps s n := by
  rw [run_eq_steps, steps_of_le h hn]

/-- A run that ends takes in the steps made before it, be they fewer or more than it takes. -/
theorem run_steps {s : Surroundings σ} (h : (e.run s).isStopped = true) (n : Nat) :
    (e.steps s n).run s = e.run s := by
  calc (e.steps s n).run s
      = e.steps s (n + requestBound) := by rw [run_eq_steps, steps_add]
    _ = (e.run s).steps s n := by rw [Nat.add_comm, steps_add, run_eq_steps]
    _ = e.run s := steps_of_isStopped h s n

theorem steps_plan (s : Surroundings σ) (n : Nat) (e : Exhauster σ) :
    (e.steps s n).plan = e.plan := by
  induction n generalizing e with
  | zero => rfl
  | succ n ih => rw [steps, ih, step_plan]

theorem steps_layout (s : Surroundings σ) (n : Nat) (e : Exhauster σ) :
    (e.steps s n).layout = e.layout := by
  induction n generalizing e with
  | zero => rfl
  | succ n ih => rw [steps, ih, step_layout]

theorem run_layout (s : Surroundings σ) (e : Exhauster σ) : (e.run s).layout = e.layout := by
  rw [run_eq_steps, steps_layout]

theorem startingEvent_steps (s : Surroundings σ) (n : Nat) (e : Exhauster σ) :
    startingEvent (e.steps s n) = startingEvent e := by
  rw [startingEvent, steps_plan, steps_layout, startingEvent]

/-- What a caller gets back: a step gives the state, a run and a report give the summary or fail. -/
inductive Reply where
  | state (s : State)
  | report (r : Except Overflow Summary)

/-- The reply to a call that leaves the exhauster as `e`. -/
def Call.reply : Call → Exhauster σ → Reply
  | .step _, e => .state e.state
  | .run _, e => .report e.report
  | .report, e => .report e.report

/-- Calls in turn with their replies. The allocator may answer differently in every call. -/
def converse : List (Allocator σ × Call) → Exhauster σ → List Reply × Exhauster σ
  | [], e => ([], e)
  | (a, c) :: cs, e =>
    let e' := c.perform a e
    let r := converse cs e'
    (c.reply e' :: r.1, r.2)

theorem perform_of_isStopped (h : e.isStopped = true) (a : Allocator σ) (c : Call) :
    c.perform a e = e := by
  cases c with
  | step g => exact step_of_isStopped h ⟨a, g⟩
  | run g => exact (run_eq_steps ⟨a, g⟩ e).trans (steps_of_isStopped h ⟨a, g⟩ requestBound)
  | report => rfl

theorem converse_of_isStopped (h : e.isStopped = true) (cs : List (Allocator σ × Call)) :
    converse cs e = (cs.map fun c => c.2.reply e, e) := by
  induction cs with
  | nil => rfl
  | cons c cs ih =>
    obtain ⟨a, c⟩ := c
    simp only [converse, perform_of_isStopped h, ih, List.map_cons]

/-- A run that ends is the same run, with the same report and the same events, after any number
of steps; and a stopped exhauster stays as it is, its allocator included, and gives the same
replies to all further calls. -/
theorem run_cut_anywhere (s : Surroundings σ) (e : Exhauster σ) :
    ((e.run s).isStopped = true → ∀ n,
      (e.steps s n).run s = e.run s ∧ (e.steps s n).runLogged s = e.runLogged s) ∧
    (∀ e' : Exhauster σ, e'.isStopped = true → ∀ cs,
      converse cs e' = (cs.map fun c => c.2.reply e', e')) := by
  refine ⟨fun h n => ⟨run_steps h n, ?_⟩, fun e' h cs => converse_of_isStopped h cs⟩
  simp only [runLogged, run_steps h, startingEvent_steps]

/-- A gate that lets two requests through ends the run at the third; it does not matter whether
one step was made before, or seven. -/
theorem run_cut_anywhere_gated :
    let s := Surroundings.ofStack .roomy true
    ∃ e, start { chunkSize := 16 } (.gated ⟨.upTo 2, 0⟩ .heap) = .ok e ∧
      (e.run s).isStopped = true ∧ (e.run s).requests = 3 ∧
      (e.steps s 1).run s = e.run s ∧ (e.steps s 7).run s = e.run s := by
  intro s
  have hplan : ∃ e, start { chunkSize := 16 } (Memory.Stack.gated ⟨.upTo 2, 0⟩ .heap) = .ok e :=
    ⟨_, rfl⟩
  obtain ⟨e, he⟩ := hplan
  have hthree : (e.steps s 3).isStopped = true ∧ (e.steps s 3).requests = 3 := by
    obtain ⟨l, hl, rfl⟩ := start_eq_ok he
    cases hl
    exact ⟨rfl, rfl⟩
  have hrun : e.run s = e.steps s 3 := run_eq_of_isStopped hthree.1 (by decide)
  have hstopped : (e.run s).isStopped = true := hrun ▸ hthree.1
  have hcut := (run_cut_anywhere s e).1 hstopped
  exact ⟨e, he, hstopped, hrun ▸ hthree.2, (hcut 1).1, (hcut 7).1⟩

end HeapPressure.Exhaust.Exhauster
