import HeapPressure.Proofs.Exhaust.Growth
import HeapPressure.Proofs.Exhaust.Stopping
import Mathlib.Data.Nat.Find

/-!
Exhaustion of the process heap, whatever it answers. Until its first refusal every turn of the
loop brings a chunk and gives none back; the refusal stops the loop, and says for which reason.
The chunks held have addresses of their own, so that there are never more bytes than a word counts.
-/
namespace HeapPressure.Exhaust

open Memory (Allocator Chunk Heap Layout)

/-- The answers of the process heap to an exhauster: `room n` to the request for room in the list
when it is full with `n` chunks, and `chunk n` to the request for one more chunk then. They come
in this order, and none is asked for twice. -/
structure Supply where
  room : Nat → Bool
  chunk : Nat → Bool

namespace Supply

/-- The heap refuses room that is asked for, so that the list cannot hold another chunk. -/
def RefusesRoom (s : Supply) (n : Nat) : Prop := FillsList n ∧ s.room n = false

/-- The first answer or the second is a refusal. -/
def Refuses (s : Supply) (n : Nat) : Prop := s.RefusesRoom n ∨ s.chunk n = false

/-- The chunks held lie apart from each other among addresses of 64 bits, and beside `n` of them
there is no place for one more. -/
def Crowded (l : Layout) (n : Nat) : Prop := wordBound ≤ (n + 1) * l.size

/-- The turn with `n` chunks held brings none. -/
def Fails (s : Supply) (l : Layout) (n : Nat) : Prop := s.Refuses n ∨ Crowded l n

/-- The process heap that gives these answers while there are addresses. It counts the requests for
chunks. -/
def allocator (s : Supply) : Allocator Nat where
  request l n :=
    ((⟨fun _ => s.chunk n && decide ((n + 1) * l.size < wordBound)⟩ : Heap).allocate l, n + 1)

def surroundings (s : Supply) : Surroundings Nat where
  allocator := s.allocator
  listGrows h := s.room h.chunks.size

theorem allocator_request_eq_none_iff {s : Supply} {l : Layout} {n : Nat} (pos : 0 < l.size) :
    (s.allocator.request l n).1 = none ↔ s.chunk n = false ∨ Crowded l n := by
  simp only [allocator, Heap.allocate, pos, dite_true, Crowded, ← Nat.not_lt]
  cases s.chunk n <;> simp

theorem not_fails_iff {s : Supply} {l : Layout} {n : Nat} :
    ¬s.Fails l n ↔ ¬s.RefusesRoom n ∧ ¬(s.chunk n = false ∨ Crowded l n) := by
  rw [Fails, Refuses, or_assoc, not_or]

end Supply

namespace Exhauster

/-- After `k` turns in which nothing was refused. -/
structure Supplied (k : Nat) (e : Exhauster Nat) : Prop where
  running : e.state = .running
  size : e.retained.size = k
  allocator : e.allocator = k
  fitted : e.handles.Fitted

variable {supply : Supply} {k : Nat} {e : Exhauster Nat}

theorem supplied_start {p : Plan} (h : start p 0 = .ok e) : Supplied 0 e := by
  obtain ⟨l, -, rfl⟩ := start_eq_ok h
  exact ⟨rfl, rfl, rfl, Handles.fitted_empty⟩

theorem Supplied.listExhausted_iff (h : Supplied k e) :
    (e.step supply.surroundings).state = .stopped .listExhausted ↔ supply.RefusesRoom k := by
  have hroom : supply.surroundings.listGrows e.handles = supply.room k := congrArg _ h.size
  rw [step_listExhausted_iff h.running, hroom, Supply.RefusesRoom, ← h.size]
  exact and_congr_left' h.fitted.full_iff

theorem Supplied.refused_iff (h : Supplied k e) (pos : 0 < e.layout.size) :
    (supply.surroundings.allocator.request e.layout e.allocator).1 = none ↔
      supply.chunk k = false ∨ Supply.Crowded e.layout k := by
  rw [h.allocator]
  exact Supply.allocator_request_eq_none_iff pos

theorem Supplied.step (h : Supplied k e) (pos : 0 < e.layout.size)
    (hk : ¬supply.Fails e.layout k) : Supplied (k + 1) (e.step supply.surroundings) := by
  have hroom := mt h.listExhausted_iff.mp (Supply.not_fails_iff.mp hk).1
  have hchunk := mt (h.refused_iff pos).mp (Supply.not_fails_iff.mp hk).2
  have hfitted : (e.step supply.surroundings).Fitted :=
    Fitted.step (fun _ => h.fitted) supply.surroundings
  have hstep : (e.step supply.surroundings).state = .running ∧
      (e.step supply.surroundings).allocator = k + 1 := by
    generalize he : e.step supply.surroundings = e' at hroom
    cases he ▸ stepped supply.surroundings e with
    | idle stopped => exact absurd h.running stopped
    | full running hr => exact absurd rfl hroom
    | refused running hr ha => exact absurd (congrArg Prod.fst ha) hchunk
    | @served handles c t running hr ha =>
      have ht : t = e.allocator + 1 := (congrArg Prod.snd ha).symm
      exact ⟨running, ht.trans (congrArg (· + 1) h.allocator)⟩
  obtain ⟨running, hasked⟩ := hstep
  obtain ⟨-, hsize, -⟩ := step_running running
  exact ⟨running, hsize.trans (congrArg (· + 1) h.size), hasked, hfitted running⟩

/-- The first refusal stops the loop, with the chunks that it holds by then. -/
theorem Supplied.step_last (h : Supplied k e) (pos : 0 < e.layout.size)
    (hk : supply.Fails e.layout k) :
    ∃ reason, (e.step supply.surroundings).state = .stopped reason ∧
      (e.step supply.surroundings).retained.size = k ∧
      (reason = .listExhausted ↔ supply.RefusesRoom k) := by
  have hlist : (e.step supply.surroundings).state = .stopped .listExhausted ↔
      supply.RefusesRoom k := h.listExhausted_iff
  have hstop : ∃ reason, (e.step supply.surroundings).state = .stopped reason := by
    by_cases hr : supply.RefusesRoom k
    · exact ⟨_, hlist.mpr hr⟩
    · have hc := (h.refused_iff pos).mpr ((or_assoc.mp hk).resolve_left hr)
      have hstate := step_state_of_refused h.running hc
      split at hstate
      · exact ⟨_, hstate⟩
      · exact ⟨_, hstate⟩
  obtain ⟨reason, hreason⟩ := hstop
  refine ⟨reason, hreason, ?_, ?_⟩
  · rw [step_retained_of_stopped (by simp [hreason]), h.size]
  · simpa [hreason] using hlist

theorem Supplied.steps (h : Supplied 0 e) (pos : 0 < e.layout.size)
    (hserved : ∀ j < k, ¬supply.Fails e.layout j) :
    Supplied k (e.steps supply.surroundings k) := by
  induction k with
  | zero => exact h
  | succ k ih =>
    have hlayout := steps_layout supply.surroundings k e
    have hbefore := ih fun j hj => hserved j (Nat.lt_succ_of_lt hj)
    rw [steps_succ]
    exact hbefore.step (hlayout ▸ pos) (hlayout ▸ hserved k (Nat.lt_succ_self k))

/-- The loop from `e` on holds one chunk more after each turn, until the heap refuses something for
the first time, with `n` chunks held; that stops it for good. -/
structure StopsAt (supply : Supply) (e : Exhauster Nat) (n : Nat) (reason : StopReason) : Prop where
  refused : supply.Fails e.layout n
  first : ∀ k < n, ¬supply.Fails e.layout k
  reason_iff : reason = .listExhausted ↔ supply.RefusesRoom n
  size : ∀ k, (e.steps supply.surroundings k).retained.size = min k n
  state : ∀ k, (e.steps supply.surroundings k).state =
    if k ≤ n then .running else .stopped reason

theorem Supplied.stopsAt {n : Nat} (he : Supplied 0 e) (pos : 0 < e.layout.size)
    (hn : supply.Fails e.layout n) (hfirst : ∀ k < n, ¬supply.Fails e.layout k) :
    ∃ reason, StopsAt supply e n reason := by
  have hsupplied : ∀ k ≤ n, Supplied k (e.steps supply.surroundings k) := by
    intro k hk
    exact he.steps pos fun j hj => hfirst j (Nat.lt_of_lt_of_le hj hk)
  have hlayout := steps_layout supply.surroundings n e
  obtain ⟨reason, hstate, hsize, hreason⟩ :=
    (hsupplied n (Nat.le_refl n)).step_last (hlayout ▸ pos) (hlayout ▸ hn)
  rw [← steps_succ] at hstate hsize
  have hstopped : (e.steps supply.surroundings (n + 1)).isStopped = true :=
    isStopped_eq_true.mpr (by simp [hstate])
  refine ⟨reason, hn, hfirst, hreason, fun k => ?_, fun k => ?_⟩
  · by_cases hk : k ≤ n
    · rw [Nat.min_eq_left hk, (hsupplied k hk).size]
    · rw [Nat.min_eq_right (by omega), steps_of_le hstopped (by omega), hsize]
  · by_cases hk : k ≤ n
    · rw [if_pos hk, (hsupplied k hk).running]
    · rw [if_neg hk, steps_of_le hstopped (by omega), hstate]

/-- A heap that refuses at some time stops a fresh exhauster. -/
theorem exists_stopsAt {p : Plan} (h : start p 0 = .ok e) (hrefuses : ∃ n, supply.Refuses n) :
    ∃ n reason, StopsAt supply e n reason := by
  classical
  have hfails : ∃ n, supply.Fails e.layout n := hrefuses.imp fun n hn => .inl hn
  have hleast : ∃ n, supply.Fails e.layout n ∧ ∀ k < n, ¬supply.Fails e.layout k :=
    ⟨Nat.find hfails, Nat.find_spec hfails, fun k hk => Nat.find_min hfails hk⟩
  obtain ⟨n, hn, hfirst⟩ := hleast
  obtain ⟨-, pos⟩ := layout_size_of_start h
  obtain ⟨reason, hstops⟩ := (supplied_start h).stopsAt pos hn hfirst
  exact ⟨n, reason, hstops⟩

variable {n : Nat} {reason : StopReason}

/-- The last chunk held had its place among the addresses. -/
theorem StopsAt.fits (h : StopsAt supply e n reason) : n * e.layout.size < wordBound := by
  cases n with
  | zero =>
    rw [Nat.zero_mul]
    decide
  | succ n => exact Nat.lt_of_not_le fun hcrowded => h.first n (Nat.lt_succ_self n) (.inr hcrowded)

/-- So a run takes the loop to its end, and there is a report. -/
theorem StopsAt.run (h : StopsAt supply e n reason) (pos : 0 < e.layout.size) :
    (e.run supply.surroundings).state = .stopped reason ∧
      (e.run supply.surroundings).retained.size = n ∧
      ∃ r, (e.run supply.surroundings).report = .ok r := by
  have hfew : n < requestBound := Nat.lt_of_le_of_lt (Nat.le_mul_of_pos_right n pos) h.fits
  have hsize : (e.run supply.surroundings).retained.size = n := by
    rw [run_eq_steps, h.size, Nat.min_eq_right (Nat.le_of_lt hfew)]
  refine ⟨?_, hsize, ?_⟩
  · rw [run_eq_steps, h.state, if_neg (Nat.not_le.mpr hfew)]
  · rw [report_eq, hsize, run_layout, if_pos h.fits]
    exact ⟨_, rfl⟩

end Exhauster
end HeapPressure.Exhaust
