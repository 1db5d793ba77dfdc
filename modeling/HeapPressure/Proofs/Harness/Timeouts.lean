import HeapPressure.Proofs.Harness.Outcomes

/-!
When a watch is given up. A poll that finds the child running later than the timeout has the group
killed, once, and the child is waited for; any other end of the child is its own.
-/
namespace HeapPressure.Harness

/-- The answers but for interruptions: those to polls, and to the question that waits. -/
def told (answers : List Answer) : List Answer := answers.filter (· ≠ .interrupted)

/-- Poll `k` found the child running and the clock then showed more than the timeout, and no
earlier poll reaped the child or failed. -/
structure Overdue (timeout : Nat) (answers : List Answer) (clock : List Nat) (k : Nat) : Prop where
  running : (told answers)[k]? = some .running
  earlier : ∀ i < k, ∀ a, (told answers)[i]? = some a → a.isEnd = false
  late : ∃ now, clock[k]? = some now ∧ timeout < now

/-- What becomes of a watch by the answer that ends it. -/
def Answer.outcome? (timedOut : Bool) : Answer → Option (Except SystemError (Reaped × Bool))
  | .reaped status counts => some (.ok (⟨status, .ofCounts counts⟩, timedOut))
  | .failed e => some (.error e)
  | _ => none

namespace Act

def isRetry : Act → Bool
  | .asked _ .interrupted => true
  | _ => false

def isReap : Act → Bool
  | .asked _ (.reaped _ _) => true
  | _ => false

/-- What is done as long as nothing was noticed. -/
def IsPolling (act : Act) : Prop := act ≠ .killedGroup ∧ ∀ a, act ≠ .asked true a

end Act

namespace Watch

/-- A watch without the questions that were interrupted. -/
def settled (w : Watch) : Watch := { w with acts := w.acts.filter (!·.isRetry) }

/-- The group is killed once, before the child is waited for and after all else. -/
def KillsOnce (w : Watch) : Prop :=
  ∃ earlier later, w.acts = earlier ++ .killedGroup :: later ∧ (∀ act ∈ earlier, act.IsPolling) ∧
    later ≠ [] ∧ ∀ act ∈ later, ∃ a, act = .asked true a

/-- The acts around readings of the clock that are not beyond the timeout. -/
def pollActs : List Nat → List Act
  | [] => []
  | now :: clock => .asked false .running :: .readClock now :: .slept :: pollActs clock

/-- The two ways in which a watch without interruptions goes. -/
inductive Concludes (timeout : Nat) : List Answer → List Nat → Watch → Prop where
  | inTime {polls clock : List Nat} {a : Answer} {rest : List Answer}
      {result : Except SystemError (Reaped × Bool)} (hpolls : ∀ now ∈ polls, now ≤ timeout)
      (ha : a.outcome? false = some result) :
      Concludes timeout (List.replicate polls.length .running ++ a :: rest) (polls ++ clock)
        ⟨result, pollActs polls ++ [.asked false a]⟩
  | late {polls clock : List Nat} {now : Nat} {a : Answer} {rest : List Answer}
      {result : Except SystemError (Reaped × Bool)} (hpolls : ∀ now ∈ polls, now ≤ timeout)
      (hnow : timeout < now) (ha : a.outcome? true = some result) :
      Concludes timeout (List.replicate polls.length .running ++ .running :: a :: rest)
        (polls ++ now :: clock)
        ⟨result,
          pollActs polls ++ [.asked false .running, .readClock now, .killedGroup, .asked true a]⟩

variable {timeout now : Nat} {blocking : Bool} {answers : List Answer} {clock : List Nat}
  {w : Watch} {answer : Answer}

theorem settled_before (acts : List Act) (w : Watch) :
    (before acts w).settled = before (acts.filter (!·.isRetry)) w.settled := by
  simp [settled, before]

theorem map_settled_before (acts : List Act) (o : Option Watch) :
    (o.map (before acts)).map settled =
      (o.map settled).map (before (acts.filter (!·.isRetry))) := by
  cases o with
  | none => rfl
  | some w => exact congrArg some (settled_before acts w)

/-- Interruptions cost no reading of the clock and leave no trace but themselves. -/
theorem run_told (timeout : Nat) (blocking : Bool) (answers : List Answer) (clock : List Nat) :
    (run timeout blocking answers clock).map settled =
      run timeout blocking (told answers) clock := by
  induction answers generalizing blocking clock with
  | nil => rfl
  | cons answer answers ih =>
    cases answer with
    | reaped | failed => rfl
    | interrupted =>
      have htold : told (.interrupted :: answers) = told answers := rfl
      rw [htold, ← ih, run, map_settled_before]
      cases run timeout blocking answers clock <;> rfl
    | running =>
      have htold : told (.running :: answers) = .running :: told answers := rfl
      rw [htold]
      cases blocking with
      | true =>
        simp only [run, if_true, map_settled_before, ih]
        rfl
      | false =>
        cases clock with
        | nil => rfl
        | cons now clock =>
          simp only [run, Bool.false_eq_true, if_false]
          split
          · rw [map_settled_before, ih]
            rfl
          · rw [map_settled_before, ih]
            rfl

theorem blocking_of_before {acts : List Act} {act : Act} (h : act ∉ (before acts w).acts) :
    act ∉ w.acts := fun hmem => h (List.mem_append_right acts hmem)

theorem run_waits (h : run timeout true answers clock = some w)
    (hblocking : .asked true .running ∉ w.acts) :
    w.acts ≠ [] ∧ ∀ act ∈ w.acts, ∃ a, act = .asked true a := by
  induction answers generalizing w with
  | nil => cases h
  | cons answer answers ih =>
    cases answer with
    | reaped | failed =>
      cases h
      refine ⟨List.cons_ne_nil _ _, ?_⟩
      intro act hact
      exact ⟨_, List.mem_singleton.mp hact⟩
    | interrupted =>
      obtain ⟨w', hw', rfl⟩ := Option.map_eq_some_iff.mp h
      obtain ⟨-, hall⟩ := ih hw' (blocking_of_before hblocking)
      refine ⟨List.cons_ne_nil _ _, ?_⟩
      intro act hact
      rcases List.mem_cons.mp hact with rfl | hact
      · exact ⟨_, rfl⟩
      · exact hall act hact
    | running =>
      obtain ⟨w', hw', rfl⟩ := Option.map_eq_some_iff.mp h
      exact absurd List.mem_cons_self hblocking

theorem KillsOnce.before {acts : List Act} (h : w.KillsOnce) (hacts : ∀ act ∈ acts, act.IsPolling) :
    (before acts w).KillsOnce := by
  obtain ⟨earlier, later, heq, hearlier, hne, hlater⟩ := h
  refine ⟨acts ++ earlier, later, ?_, ?_, hne, hlater⟩
  · change acts ++ w.acts = _
    rw [heq, List.append_assoc]
  · intro act hact
    rcases List.mem_append.mp hact with hact | hact
    · exact hacts act hact
    · exact hearlier act hact

theorem polls_before {acts : List Act} (hacts : ∀ act ∈ acts, act.IsPolling)
    (h : (∀ act ∈ w.acts, act.IsPolling) ∨ w.KillsOnce) :
    (∀ act ∈ (before acts w).acts, act.IsPolling) ∨ (before acts w).KillsOnce := by
  rcases h with h | h
  · exact .inl (List.forall_mem_append.mpr ⟨hacts, h⟩)
  · exact .inr (h.before hacts)

theorem run_polls (h : run timeout false answers clock = some w)
    (hblocking : .asked true .running ∉ w.acts) :
    (∀ act ∈ w.acts, act.IsPolling) ∨ w.KillsOnce := by
  induction answers generalizing clock w with
  | nil => cases h
  | cons answer answers ih =>
    have hasked : ∀ act ∈ [Act.asked false answer], act.IsPolling := by simp [Act.IsPolling]
    cases answer with
    | reaped | failed =>
      cases h
      exact .inl hasked
    | interrupted =>
      obtain ⟨w', hw', rfl⟩ := Option.map_eq_some_iff.mp h
      exact polls_before hasked (ih hw' (blocking_of_before hblocking))
    | running =>
      cases clock with
      | nil => cases h
      | cons now clock =>
        simp only [run, Bool.false_eq_true, if_false] at h
        split at h
        · obtain ⟨w', hw', rfl⟩ := Option.map_eq_some_iff.mp h
          obtain ⟨hne, hall⟩ := run_waits hw' (blocking_of_before hblocking)
          exact .inr ⟨[.asked false .running, .readClock now], w'.acts, rfl,
            by simp [Act.IsPolling], hne, hall⟩
        · obtain ⟨w', hw', rfl⟩ := Option.map_eq_some_iff.mp h
          exact polls_before (by simp [Act.IsPolling]) (ih hw' (blocking_of_before hblocking))

theorem Concludes.cons (h : Concludes timeout answers clock w) (hnow : now ≤ timeout) :
    Concludes timeout (.running :: answers) (now :: clock)
      (before [.asked false .running, .readClock now, .slept] w) := by
  cases h with
  | inTime hpolls ha =>
    exact .inTime (List.forall_mem_cons.mpr ⟨hnow, hpolls⟩) ha
  | late hpolls hlate ha =>
    exact .late (List.forall_mem_cons.mpr ⟨hnow, hpolls⟩) hlate ha

theorem exists_outcome_of_run (hanswers : .interrupted ∉ answers)
    (h : run timeout true answers clock = some w) (hblocking : .asked true .running ∉ w.acts) :
    ∃ a rest result, answers = a :: rest ∧ a.outcome? true = some result ∧
      w = ⟨result, [.asked true a]⟩ := by
  cases answers with
  | nil => cases h
  | cons answer answers =>
    cases answer with
    | reaped | failed =>
      cases h
      exact ⟨_, _, _, rfl, rfl, rfl⟩
    | interrupted => exact absurd List.mem_cons_self hanswers
    | running =>
      obtain ⟨w', hw', rfl⟩ := Option.map_eq_some_iff.mp h
      exact absurd List.mem_cons_self hblocking

theorem concludes_of_run (hanswers : .interrupted ∉ answers)
    (h : run timeout false answers clock = some w) (hblocking : .asked true .running ∉ w.acts) :
    Concludes timeout answers clock w := by
  have hnone : ∀ now ∈ ([] : List Nat), now ≤ timeout := nofun
  induction answers generalizing clock w with
  | nil => cases h
  | cons answer answers ih =>
    have hrest : .interrupted ∉ answers := fun hmem => hanswers (List.mem_cons_of_mem answer hmem)
    cases answer with
    | reaped | failed =>
      cases h
      exact .inTime hnone rfl
    | interrupted => exact absurd List.mem_cons_self hanswers
    | running =>
      cases clock with
      | nil => cases h
      | cons now clock =>
        simp only [run, Bool.false_eq_true, if_false] at h
        split at h
        · next hlate =>
          obtain ⟨w', hw', rfl⟩ := Option.map_eq_some_iff.mp h
          obtain ⟨a, rest, result, rfl, ha, rfl⟩ :=
            exists_outcome_of_run hrest hw' (blocking_of_before hblocking)
          exact .late hnone hlate ha
        · next hearly =>
          obtain ⟨w', hw', rfl⟩ := Option.map_eq_some_iff.mp h
          exact (ih hrest hw' (blocking_of_before hblocking)).cons (Nat.le_of_not_lt hearly)

theorem killedGroup_notMem_pollActs (polls : List Nat) : .killedGroup ∉ pollActs polls := by
  induction polls with
  | nil => exact List.not_mem_nil
  | cons now polls ih => simpa [pollActs] using ih

theorem filter_isReap_pollActs (polls : List Nat) : (pollActs polls).filter Act.isReap = [] := by
  induction polls with
  | nil => rfl
  | cons now polls ih => exact ih

theorem isEnd_of_outcome {timedOut : Bool} {result : Except SystemError (Reaped × Bool)}
    (h : answer.outcome? timedOut = some result) : answer.isEnd = true := by
  cases answer with
  | reaped | failed => rfl
  | running | interrupted => cases h

/-- Whatever ends a watch that answered so, only a child that is reaped gives its status, and it is
reaped by the last question. -/
theorem outcome_eq_ok_iff {timedOut timedOut' : Bool} {reaped : Reaped} :
    answer.outcome? timedOut = some (.ok (reaped, timedOut')) ↔
      ∃ status counts, answer = .reaped status counts ∧ reaped = ⟨status, .ofCounts counts⟩ ∧
        timedOut' = timedOut := by
  cases answer with
  | reaped status counts =>
    constructor
    · intro h
      cases h
      exact ⟨status, counts, rfl, rfl, rfl⟩
    · intro h
      obtain ⟨_, _, ⟨⟩, rfl, rfl⟩ := h
      rfl
  | failed | running | interrupted => simp [Answer.outcome?]

section
variable {polls rest : List Nat} {later : List Answer} {n k : Nat}

theorem getElem?_running (h : k < n) (later : List Answer) :
    (List.replicate n Answer.running ++ later)[k]? = some .running := by
  rw [List.getElem?_append_left (by simpa using h), List.getElem?_replicate_of_lt h]

theorem getElem?_behind (n k : Nat) (later : List Answer) :
    (List.replicate n Answer.running ++ later)[n + k]? = later[k]? := by
  rw [List.getElem?_append_right (by simp)]
  simp

/-- No poll is overdue once the child is reaped or a poll has failed. -/
theorem lt_of_overdue (h : Overdue timeout answers clock k)
    (htold : told answers = List.replicate n .running ++ answer :: later)
    (hanswer : answer.isEnd = true) : k < n := by
  have hend : (told answers)[n]? = some answer := by
    rw [htold]
    exact getElem?_behind n 0 _
  by_contra hle
  rcases Nat.lt_or_eq_of_le (Nat.le_of_not_lt hle) with hlt | rfl
  · have hnot := h.earlier n hlt answer hend
    rw [hanswer] at hnot
    cases hnot
  · cases hend.symm.trans h.running
    cases hanswer

/-- No poll is overdue while the clock shows no more than the timeout. -/
theorem le_of_overdue (h : Overdue timeout answers (polls ++ rest) k)
    (hpolls : ∀ now ∈ polls, now ≤ timeout) : polls.length ≤ k := by
  obtain ⟨now, hnow, hlate⟩ := h.late
  by_contra hlt
  rw [List.getElem?_append_left (Nat.lt_of_not_le hlt)] at hnow
  have hle := hpolls now (List.mem_of_getElem? hnow)
  omega

theorem overdue_iff (hpolls : ∀ now ∈ polls, now ≤ timeout) (hnow : timeout < now)
    (hanswer : answer.isEnd = true)
    (htold : told answers = List.replicate polls.length .running ++ .running :: answer :: later) :
    Overdue timeout answers (polls ++ now :: rest) k ↔ k = polls.length := by
  have htold' : told answers = List.replicate (polls.length + 1) .running ++ answer :: later := by
    rw [htold, List.replicate_succ', List.append_assoc]
    rfl
  constructor
  · intro h
    have hlt := lt_of_overdue h htold' hanswer
    have hle := le_of_overdue h hpolls
    omega
  · intro hk
    subst hk
    refine ⟨?_, ?_, now, ?_, hnow⟩
    · rw [htold']
      exact getElem?_running (Nat.lt_succ_self _) _
    · intro i hi a ha
      rw [htold', getElem?_running (Nat.lt_succ_of_lt hi)] at ha
      cases ha
      rfl
    · rw [List.getElem?_append_right (Nat.le_refl _), Nat.sub_self]
      rfl

end

/-- What the overdue polls of a watch have to do with how it goes. -/
theorem Concludes.tells {ts : List Answer} (h : Concludes timeout ts clock w)
    (htold : told answers = ts) :
    (.killedGroup ∈ w.acts ↔ ∃ k, Overdue timeout answers clock k) ∧
    ((∃ reaped, w.result = .ok (reaped, true)) ↔
      ∃ k, Overdue timeout answers clock k ∧ ∀ e, (told answers)[k + 1]? ≠ some (.failed e)) := by
  cases h with
  | @inTime polls rest a later result hpolls ha =>
    have hnone (k : Nat) : ¬ Overdue timeout answers (polls ++ rest) k := by
      intro hk
      have hlt := lt_of_overdue hk htold (isEnd_of_outcome ha)
      have hle := le_of_overdue hk hpolls
      omega
    refine ⟨iff_of_false ?_ ?_, iff_of_false ?_ ?_⟩
    · simpa using killedGroup_notMem_pollActs polls
    · exact not_exists.mpr hnone
    · intro hresult
      obtain ⟨reaped, rfl⟩ := hresult
      obtain ⟨_, _, _, _, htrue⟩ := outcome_eq_ok_iff.mp ha
      cases htrue
    · intro hlate
      obtain ⟨k, hk, -⟩ := hlate
      exact hnone k hk
  | @late polls rest now a later result hpolls hnow ha =>
    have honly (k : Nat) : Overdue timeout answers (polls ++ now :: rest) k ↔ k = polls.length :=
      overdue_iff hpolls hnow (isEnd_of_outcome ha) htold
    have hanswer : (told answers)[polls.length + 1]? = some a := by
      rw [htold]
      exact getElem?_behind polls.length 1 _
    refine ⟨iff_of_true ?_ ?_, ?_⟩
    · simp
    · exact ⟨polls.length, (honly _).mpr rfl⟩
    · simp only [honly, exists_eq_left, hanswer]
      constructor
      · intro hresult e he
        obtain ⟨reaped, rfl⟩ := hresult
        obtain ⟨_, _, rfl, _⟩ := outcome_eq_ok_iff.mp ha
        cases he
      · intro hfailed
        cases a with
        | reaped status counts =>
          cases ha
          exact ⟨_, rfl⟩
        | failed e => exact absurd rfl (hfailed e)
        | running | interrupted => cases ha

/-- The question that ends a watch is its last one, and the only one that can reap the child. -/
theorem Concludes.ends {ts : List Answer} (h : Concludes timeout ts clock w) :
    ∃ earlier timedOut a, w.acts = earlier ++ [.asked timedOut a] ∧
      a.outcome? timedOut = some w.result ∧ earlier.filter Act.isReap = [] := by
  cases h with
  | @inTime polls rest a later result hpolls ha =>
    exact ⟨pollActs polls, false, a, rfl, ha, filter_isReap_pollActs polls⟩
  | @late polls rest now a later result hpolls hnow ha =>
    refine ⟨pollActs polls ++ [.asked false .running, .readClock now, .killedGroup], true, a,
      ?_, ha, ?_⟩
    · rw [List.append_assoc]
      rfl
    · rw [List.filter_append, filter_isReap_pollActs]
      rfl

/-- One answer reaps the child. It is the answer to a poll or to the question that waits, and that
is whether the child ran out of time. -/
theorem Concludes.reaps {ts : List Answer} (h : Concludes timeout ts clock w) :
    (∀ status counts, .asked false (.reaped status counts) ∈ w.acts →
      w.result = .ok (⟨status, .ofCounts counts⟩, false)) ∧
    ∀ reaped timedOut, w.result = .ok (reaped, timedOut) → ∃ status counts,
      w.acts.filter Act.isReap = [.asked timedOut (.reaped status counts)] ∧
        reaped = ⟨status, .ofCounts counts⟩ := by
  obtain ⟨earlier, asked, a, hacts, ha, hearlier⟩ := h.ends
  rw [hacts]
  constructor
  · intro status counts hmem
    rcases List.mem_append.mp hmem with hmem | hmem
    · exact absurd rfl (List.filter_eq_nil_iff.mp hearlier _ hmem)
    · cases List.mem_singleton.mp hmem
      exact (Option.some.inj ha).symm
  · intro reaped timedOut hresult
    rw [hresult] at ha
    obtain ⟨status, counts, rfl, rfl, rfl⟩ := outcome_eq_ok_iff.mp ha
    refine ⟨status, counts, ?_, rfl⟩
    rw [List.filter_append, hearlier]
    rfl

theorem mem_settled {act : Act} (hact : act.isRetry = false) :
    act ∈ w.settled.acts ↔ act ∈ w.acts := by
  simp [settled, hact]

theorem filter_isReap_settled (w : Watch) :
    w.settled.acts.filter Act.isReap = w.acts.filter Act.isReap := by
  rw [settled, List.filter_filter]
  refine List.filter_congr fun act _ => ?_
  cases act with
  | asked blocking answer => cases answer <;> rfl
  | readClock | killedGroup | slept | joinedOutput => rfl

theorem interrupted_notMem_told (answers : List Answer) : .interrupted ∉ told answers := by
  simp [told]

theorem concludes_settled (h : run timeout false answers clock = some w)
    (hblocking : .asked true .running ∉ w.acts) :
    Concludes timeout (told answers) clock w.settled := by
  have hsettled : run timeout false (told answers) clock = some w.settled := by
    rw [← run_told, h]
    rfl
  refine concludes_of_run (interrupted_notMem_told answers) hsettled ?_
  rwa [mem_settled rfl]

end Watch

open Watch

theorem exists_runChild {l : Launch} {c : Child} {w : Watch}
    (h : watch l.timeoutMillis c.answers c.clock = some w) : ∃ x, runChild l c = some x ∧
      x.result = (w.result.mapError Error.system).map fun e => reportOn l c e.1 e.2 := by
  have hresult := runChild_result l c
  rw [h] at hresult
  exact Option.map_eq_some_iff.mp hresult

theorem verdict_reportOn {l : Launch} {c : Child} {reaped : Reaped} {timedOut : Bool} :
    (reportOn l c reaped timedOut).verdict = .timeLimitExceeded ↔ timedOut = true :=
  classify_eq_timeLimitExceeded_iff

/-- A watch that is over, in which the system did not call the child running when asked to wait for
its end, says that the child ran out of time exactly when a poll was overdue and the wait behind it
did not fail. The group is killed exactly when a poll was overdue, and then once, before the wait.
A child that a poll reaps did not run out of time. Interruptions, wherever they stand, change
nothing else. What is told of the child is the one answer that reaped it, and the report on it has
the verdict of a timeout exactly when it ran out of time. -/
theorem watch_times_out_overdue (l : Launch) (c : Child) (w : Watch)
    (h : watch l.timeoutMillis c.answers c.clock = some w)
    (hblocking : .asked true .running ∉ w.acts) :
    ((∃ reaped, w.result = .ok (reaped, true)) ↔
      ∃ k, Overdue l.timeoutMillis c.answers c.clock k ∧
        ∀ e, (told c.answers)[k + 1]? ≠ some (.failed e)) ∧
    ((∃ k, Overdue l.timeoutMillis c.answers c.clock k) → w.KillsOnce) ∧
    ((¬ ∃ k, Overdue l.timeoutMillis c.answers c.clock k) → .killedGroup ∉ w.acts) ∧
    (∀ status counts, .asked false (.reaped status counts) ∈ w.acts →
      w.result = .ok (⟨status, .ofCounts counts⟩, false)) ∧
    (∀ answers, told answers = told c.answers →
      ∃ w', watch l.timeoutMillis answers c.clock = some w' ∧ w'.settled = w.settled) ∧
    (∀ reaped timedOut, w.result = .ok (reaped, timedOut) → ∃ status counts,
      w.acts.filter Act.isReap = [.asked timedOut (.reaped status counts)] ∧
        reaped = ⟨status, .ofCounts counts⟩) ∧
    ∃ x, runChild l c = some x ∧ ((∃ r, x.result = .ok r ∧ r.verdict = .timeLimitExceeded) ↔
      ∃ reaped, w.result = .ok (reaped, true)) := by
  have hconcludes := concludes_settled h hblocking
  obtain ⟨hkilled, htimedOut⟩ := hconcludes.tells rfl
  obtain ⟨hpoll, hone⟩ := hconcludes.reaps
  rw [mem_settled rfl] at hkilled
  refine ⟨htimedOut, ?_, ?_, ?_, ?_, ?_, ?_⟩
  · intro hoverdue
    rcases run_polls h hblocking with hpolling | honce
    · exact absurd rfl (hpolling _ (hkilled.mpr hoverdue)).1
    · exact honce
  · intro hnone hmem
    exact hnone (hkilled.mp hmem)
  · intro status counts hmem
    exact hpoll status counts ((mem_settled rfl).mpr hmem)
  · intro answers htold
    have hsettled : (watch l.timeoutMillis answers c.clock).map settled = some w.settled := by
      rw [watch, run_told, htold, ← run_told, ← watch, h]
      rfl
    exact Option.map_eq_some_iff.mp hsettled
  · intro reaped timedOut hresult
    rw [← filter_isReap_settled]
    exact hone reaped timedOut hresult
  · obtain ⟨x, hx, hresult⟩ := exists_runChild h
    refine ⟨x, hx, ?_⟩
    simp only [hresult, map_eq_ok_iff, mapError_eq_ok_iff]
    constructor
    · intro hreport
      obtain ⟨r, ⟨⟨reaped, timedOut⟩, hw, rfl⟩, hverdict⟩ := hreport
      obtain rfl : timedOut = true := verdict_reportOn.mp hverdict
      exact ⟨reaped, hw⟩
    · intro hreaped
      obtain ⟨reaped, hw⟩ := hreaped
      exact ⟨_, ⟨_, hw, rfl⟩, verdict_reportOn.mpr rfl⟩

/-- The first poll is in time, the second is interrupted and then overdue, and so is the wait for
the killed child. -/
theorem watch_times_out_overdue_interrupted :
    let l : Launch := { program := "/bin/sh", timeoutMillis := 100 }
    let c : Child := {
      answers := [.running, .interrupted, .running, .interrupted, .reaped 9 {}]
      clock := [60, 110], stdout := [], stderr := [], wallTimeMillis := 120 }
    ∃ w, watch l.timeoutMillis c.answers c.clock = some w ∧ .asked true .running ∉ w.acts ∧
      Overdue l.timeoutMillis c.answers c.clock 1 ∧ w.KillsOnce ∧
      (∃ reaped, w.result = .ok (reaped, true)) ∧
      ∃ x, runChild l c = some x ∧ ∃ r, x.result = .ok r ∧ r.verdict = .timeLimitExceeded := by
  intro l c
  obtain ⟨w, hw⟩ : ∃ w, watch l.timeoutMillis c.answers c.clock = some w := ⟨_, rfl⟩
  have hblocking : .asked true .running ∉ w.acts := by
    cases hw
    decide
  have hoverdue : Overdue l.timeoutMillis c.answers c.clock 1 := by
    refine ⟨rfl, ?_, 110, rfl, by decide⟩
    intro i hi a ha
    obtain rfl : i = 0 := Nat.lt_one_iff.mp hi
    cases ha
    rfl
  obtain ⟨htimedOut, honce, -, -, -, -, x, hx, hverdict⟩ :=
    watch_times_out_overdue l c w hw hblocking
  have hreaped := htimedOut.mpr ⟨1, hoverdue, nofun⟩
  exact ⟨w, hw, hblocking, hoverdue, honce ⟨1, hoverdue⟩, hreaped, x, hx, hverdict.mpr hreaped⟩

end HeapPressure.Harness
