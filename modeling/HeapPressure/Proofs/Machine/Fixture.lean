import HeapPressure.Machine.Host
import HeapPressure.Proofs.Exhaust.Rationed
import HeapPressure.Proofs.Exhaust.Supply
import HeapPressure.Proofs.Harness.Outcomes
import HeapPressure.Proofs.Log.Quiet

/-!
The fixture as the harness sees it. The filter of the harness never reaches it, so its log stops
below warnings, and it logs nothing that severe. It ends without a word and with exit code zero,
for whichever reason its loop stops, and the report on it says so. On a machine it fills the memory
that there is.
-/
namespace HeapPressure

namespace Exhaust

open Log (Session)

/-- The log of a fixture to which no filter was handed down. -/
def quietLog : Session := ({} : Session).initFixture component

theorem quietLog_lines : quietLog.lines = [] := rfl

theorem quietLog_stopsBelow : quietLog.StopsBelow .warn := by
  have hsetup : quietLog.setup = some ⟨[.ofLevel (some .warn),
      ⟨some "alloc_exhaust", none, none, some .warn⟩], .plaintext, .errorStream⟩ := by
    decide +kernel
  refine ⟨_, hsetup, ?_⟩
  simp [Log.Filter.StopsBelow, Log.Directive.ofLevel]

variable {σ : Type} {s : Surroundings σ} {allocator : σ} {e : Exhauster σ}

theorem Exhauster.level_of_runLogged (s : Surroundings σ) (e : Exhauster σ) :
    ∀ x ∈ (e.runLogged s).events, x.level = .debug := by
  have hlast : ∀ x ∈ ((e.run s).report.toOption.map stoppedEvent).toList, x.level = .debug := by
    simp [stoppedEvent]
  intro x hx
  rcases List.mem_cons.mp hx with rfl | hx
  · rfl
  · split at hx
    · exact hlast x hx
    · cases hx

/-- The fixture's own plan is accepted, so that there is nothing to warn of; and a loop that ends
in a report leaves nothing to complain of. -/
theorem depart_of_start (he : Exhauster.start {} allocator = .ok e)
    (hstopped : (e.run s).isStopped = true) (hreport : ∃ r, (e.run s).report = .ok r) :
    depart s allocator none = some { exitCode := 0, held := (e.run s).retained.size } := by
  have hquiet : (quietLog.emitAll (e.runLogged s).events).lines = [] := by
    rw [quietLog_stopsBelow.emitAll fun x hx => by
      rw [e.level_of_runLogged s x hx]
      decide]
    exact quietLog_lines
  obtain ⟨r, hr⟩ := hreport
  have hran : (e.runLogged s).exhauster.isStopped = true := hstopped
  have htold : (e.runLogged s).report = .ok r := hr
  simp only [depart, he, hran, htold, if_true]
  exact congrArg (fun lines => some (Departure.mk 0 lines none _)) hquiet

/-- The fixture over a heap that refuses at some time. -/
theorem exists_depart {supply : Supply} (hrefuses : ∃ n, supply.Refuses n) :
    ∃ (e : Exhauster Nat) (n : Nat) (reason : StopReason), Exhauster.start {} 0 = .ok e ∧
      e.StopsAt supply n reason ∧
      (e.run supply.surroundings).state = .stopped reason ∧
      (e.run supply.surroundings).retained.size = n ∧
      depart supply.surroundings 0 none = some { exitCode := 0, held := n } := by
  obtain ⟨e, he⟩ := Exhauster.exists_start 0
  obtain ⟨n, reason, hstops⟩ := Exhauster.exists_stopsAt he hrefuses
  obtain ⟨hstate, hsize, hreport⟩ := hstops.run (Exhauster.layout_size_of_start he).2
  have hstopped : (e.run supply.surroundings).isStopped = true :=
    Exhauster.isStopped_eq_true.mpr (by simp [hstate])
  have hdepart := depart_of_start he hstopped hreport
  rw [hsize] at hdepart
  exact ⟨e, n, reason, he, hstops, hstate, hsize, hdepart⟩

/-- Behind a budget the fixture obtains all the chunks that the budget is good for. -/
theorem depart_capped {cap : Nat} (hcap : cap < wordBound) :
    depart (.ofStack .roomy true) (Memory.Stack.capped ⟨cap, 0⟩ .heap) none =
      some { exitCode := 0, held := cap / 0x100000 } := by
  let rs : List Memory.Ration := [.bytes cap]
  obtain ⟨e, he⟩ := Exhauster.exists_start (Memory.Stack.ofRations rs)
  have hsize : e.layout.size = 0x100000 := (Exhauster.layout_size_of_start he).1
  have hserves : Memory.Heap.roomy.serves e.layout = true := by
    obtain ⟨l, hl, rfl⟩ := Exhauster.start_eq_ok he
    cases hl
    rfl
  have hlasts : ∀ r ∈ rs, cap / 0x100000 ≤ r.lasts e.layout.size := by
    simp [rs, Memory.Ration.lasts, hsize]
  have hlast : ∃ r ∈ rs, ¬cap / 0x100000 < r.lasts e.layout.size := by
    simp [rs, Memory.Ration.lasts, hsize]
  have hfits : cap / 0x100000 * e.layout.size < wordBound := by
    rw [hsize]
    exact Nat.lt_of_le_of_lt (Nat.div_mul_le_self cap _) hcap
  have hfew : cap / 0x100000 + 1 ≤ Exhauster.requestBound := by
    simp only [wordBound] at hcap
    simp only [Exhauster.requestBound]
    omega
  obtain ⟨hend, -⟩ := (Exhauster.served_start he).run hserves (by omega) hlasts hlast hfew hfits
  have hreport := hend.report_eq (by rwa [Exhauster.run_layout])
  have hdepart := depart_of_start he hend.isStopped ⟨_, hreport⟩
  rw [hend.size] at hdepart
  exact hdepart

end Exhaust

namespace Machine

open Harness (Answer Child Host Launch childEnvironment filterVariable watch)
open Exhaust (Exhauster Supply Surroundings)

theorem lookup_childEnvironment (environment : List (String × String)) :
    (childEnvironment environment).lookup filterVariable = none := by
  rw [List.lookup_eq_none_iff]
  intro v hv
  have hname := (List.mem_filter.mp hv).2
  simp only [bne_iff_ne] at hname ⊢
  exact hname.symm

/-- Writes of no bytes show on no stream. -/
theorem bytesOn_eq_nil {stream : Shell.Stream} {ws : List Shell.Write}
    (h : ∀ w ∈ ws, w.bytes = []) : Shell.State.bytesOn stream ws = [] := by
  rw [Shell.State.bytesOn, List.flatMap_eq_nil_iff]
  intro w hw
  have hmem := List.mem_mergeSort.mp hw
  exact h w (List.mem_reverse.mp (List.mem_filter.mp hmem).1)

namespace Course

/-- Over a heap that refuses at some time the fixture writes nothing and exits with code zero. -/
theorem ofFixture_eq (environment : List (String × String)) {supply : Supply}
    (hrefuses : ∃ n, supply.Refuses n) :
    ofFixture environment supply.surroundings 0 = ⟨some (0, exited 0), [⟨0, .error, [], 0⟩]⟩ := by
  obtain ⟨e, n, reason, -, -, -, -, hdepart⟩ := Exhaust.exists_depart hrefuses
  rw [ofFixture, lookup_childEnvironment, hdepart]
  rfl

/-- The harness sees a process through: what it writes is collected, and it is reaped with the
status that it ends with, before the timeout is noticed. -/
structure SeenThrough (course : Course) (timeoutMillis : Nat) (c : Child) : Prop where
  stdout : c.stdout = Shell.State.bytesOn .output course.written
  stderr : c.stderr = Shell.State.bytesOn .error course.written
  reaped : ∃ time status counts, course.ending = some (time, status) ∧
    c.answers.find? Answer.isEnd = some (.reaped status counts)
  inTime : ∃ w, watch timeoutMillis c.answers c.clock = some w ∧ w.noticedTimeout = false

theorem le_of_mem_readings {n timeoutMillis now : Nat} (hn : n ≤ pausesFor timeoutMillis)
    (h : now ∈ readings n) : now ≤ timeoutMillis := by
  obtain ⟨k, hk, rfl⟩ := List.mem_map.mp h
  have hk := List.mem_range.mp hk
  simp only [pausesFor, Harness.pollMillis] at hn ⊢
  omega

/-- On the machine that is so for what ends before its timeout. -/
theorem seenThrough_child {course : Course} {timeoutMillis time : Nat} {status : Int32}
    (hend : course.ending = some (time, status))
    (hpauses : pausesFor (time + 1) ≤ pausesFor timeoutMillis)
    (hquestions : pausesFor (time + 1) ≤ maxQuestions)
    (hwritten : ∀ w ∈ course.written, w.time ≤ time) :
    course.SeenThrough timeoutMillis (course.child timeoutMillis) := by
  have hchild : course.child timeoutMillis =
      course.childAfter (pausesFor (time + 1)) (pausesFor (time + 1)) status := by
    simp [child, hend, hpauses, hquestions]
  have htime : time ≤ pausesFor (time + 1) * Harness.pollMillis := by
    simp only [pausesFor, Harness.pollMillis]
    omega
  have hall : (course.written.filter fun w =>
      w.time ≤ pausesFor (time + 1) * Harness.pollMillis) = course.written := by
    rw [List.filter_eq_self]
    intro w hw
    simpa using Nat.le_trans (hwritten w hw) htime
  rw [hchild]
  refine ⟨?_, ?_, ⟨time, status, standardCounts, hend, ?_⟩, ?_⟩
  · rw [childAfter, hall]
  · rw [childAfter, hall]
  · simp [childAfter, Answer.isEnd]
  · exact Harness.Watch.run_reaped_in_time (by simp [childAfter, readings])
      fun now hnow => le_of_mem_readings hpauses hnow

end Course

/-- On a machine whose memory can be counted in a word, a limit either leaves the fixture no room to
begin, or it ends like that. -/
theorem fixtureCourse_eq (m : Machine) (hm : m.memory < Exhaust.wordBound) (l : Launch) :
    m.fixtureCourse l =
      if (limitInForce l).getD m.memory < fixtureImageBytes then ⟨some (0, Course.signalled 11), []⟩
      else ⟨some (0, Course.exited 0), [⟨0, .error, [], 0⟩]⟩ := by
  rw [fixtureCourse]
  split
  · rfl
  · have hcap : min ((limitInForce l).getD m.memory) m.memory < Exhaust.wordBound :=
      Nat.lt_of_le_of_lt (Nat.min_le_right _ _) hm
    rw [Course.ofFixture, lookup_childEnvironment, Exhaust.depart_capped hcap]
    rfl

/-- What is said of a process that exits with code zero and writes nothing. -/
theorem reportOn_clean {l : Launch} {c : Child} {reaped : Harness.Reaped}
    (hstatus : reaped.status = Course.exited 0) (hstdout : c.stdout = [])
    (hstderr : c.stderr = []) :
    let r := Harness.reportOn l c reaped false
    r.verdict = .ok ∧ r.exitCode = some 0 ∧ r.signal = none ∧ r.stdout = "" ∧ r.stderr = "" := by
  have hverdict : classify (.ofStatus (Course.exited 0)) false = .ok := by decide
  have hcode : (ExitOutcome.ofStatus (Course.exited 0)).code = some 0 := by decide
  have hsignal : (ExitOutcome.ofStatus (Course.exited 0)).signal = none := by decide
  have hempty : Report.head [] = "" := by decide
  simp only [Harness.reportOn, Report.withOutput, Report.withUsage, Report.ofOutcome, hstatus,
    hstdout, hstderr, hverdict, hcode, hsignal, hempty, and_self]

/-- The fixture on a heap that refuses at some time, started by the harness with any arguments and
any filter in the environment, and seen through to its end. Its loop keeps every chunk that it is
given and is stopped by the first refusal, be it the list or the chunk that was refused; it exits
with code zero, having written nothing and released nothing; and the report on it is accepted,
with exit code zero, no signal and two empty streams. -/
theorem fixture_reported_clean (supply : Supply) (hrefuses : ∃ n, supply.Refuses n)
    (environment : List (String × String)) (host : Host) (l : Launch) (c : Child)
    (hstart : host.start l = .ok c)
    (hseen : (Course.ofFixture environment supply.surroundings 0).SeenThrough l.timeoutMillis c) :
    (∃ d e n reason, Exhaust.depart supply.surroundings 0
        ((childEnvironment environment).lookup filterVariable) = some d ∧
      Exhauster.start {} 0 = .ok e ∧ e.StopsAt supply n reason ∧
      d.exitCode = 0 ∧ d.lines = [] ∧ d.overflow = none ∧
      (e.run supply.surroundings).state = .stopped reason ∧
      d.held = (e.run supply.surroundings).retained.size ∧ d.held = n) ∧
    c.stdout = [] ∧ c.stderr = [] ∧
    ∃ r, (Harness.run host l).map Harness.Run.result = some (.ok r) ∧ r.verdict = .ok ∧
      r.exitCode = some 0 ∧ r.signal = none ∧ r.stdout = "" ∧ r.stderr = "" := by
  obtain ⟨hstdout, hstderr, ⟨time, status, counts, hend, hreaped⟩, ⟨w, hw, hnoticed⟩⟩ := hseen
  rw [Course.ofFixture_eq environment hrefuses] at hstdout hstderr hend
  rw [bytesOn_eq_nil (by simp)] at hstdout hstderr
  cases hend
  refine ⟨?_, hstdout, hstderr, ?_⟩
  · obtain ⟨e, n, reason, he, hstops, hstate, hsize, hdepart⟩ := Exhaust.exists_depart hrefuses
    rw [← lookup_childEnvironment environment] at hdepart
    exact ⟨_, e, n, reason, hdepart, he, hstops, rfl, rfl, rfl, hstate, hsize.symm, rfl⟩
  · obtain ⟨answer, hanswer, hends⟩ := Harness.Watch.run_endsAs hw
    cases hreaped.symm.trans hanswer
    generalize hresult : w.result = result at hends
    cases hends with
    | reaped =>
      cases Harness.Watch.timedOut_of_not_noticed hw hnoticed hresult
      exact ⟨_, Harness.run_reports_iff.mpr ⟨c, w, _, hstart, hw, hresult, rfl⟩,
        reportOn_clean rfl hstdout hstderr⟩

/-- The heap refuses only room for a fifth chunk; a filter that lets everything through waits in
the environment. The fixture is stopped by its list, with four chunks. -/
theorem fixture_reported_clean_full_list :
    let supply : Supply := ⟨fun n => n != 4, fun _ => true⟩
    let environment := [("PATH", "/bin"), ("RUST_LOG", "trace")]
    let course := Course.ofFixture environment supply.surroundings 0
    let l : Launch :=
      { program := "/bin/alloc_exhaust", args := ["--loudly"], timeoutMillis := 5000 }
    let host : Host := {
      readFile := fun _ => .error .notFound
      pathExists := fun path => path == "/bin/alloc_exhaust"
      programDirectory := .ok "/bin"
      start := fun l => .ok (course.child l.timeoutMillis) }
    supply.Refuses 4 ∧ course.SeenThrough l.timeoutMillis (course.child l.timeoutMillis) ∧
    (∃ d, Exhaust.depart supply.surroundings 0
        ((childEnvironment environment).lookup filterVariable) = some d ∧
      d.exitCode = 0 ∧ d.lines = [] ∧ d.held = 4) ∧
    ∃ r, (Harness.run host l).map Harness.Run.result = some (.ok r) ∧ r.verdict = .ok ∧
      r.exitCode = some 0 ∧ r.stdout = "" ∧ r.stderr = "" := by
  intro supply environment course l host
  have hrefuses : supply.Refuses 4 := .inl ⟨.inr ⟨0, rfl⟩, rfl⟩
  have hcourse : course = ⟨some (0, Course.exited 0), [⟨0, .error, [], 0⟩]⟩ :=
    Course.ofFixture_eq environment ⟨4, hrefuses⟩
  have hseen : course.SeenThrough l.timeoutMillis (course.child l.timeoutMillis) := by
    rw [hcourse]
    exact Course.seenThrough_child rfl (by decide) (by decide) (by simp)
  obtain ⟨⟨d, e, n, reason, hdepart, he, hstops, hexit, hlines, -, -, -, hheld⟩, -, -, hreport⟩ :=
    fixture_reported_clean supply ⟨4, hrefuses⟩ environment host l _ rfl hseen
  obtain ⟨r, hr, hverdict, hcode, -, hstdout, hstderr⟩ := hreport
  have hchunk : e.layout.size = 0x100000 := (Exhauster.layout_size_of_start he).1
  have hfull : n = 4 := by
    have hle : n ≤ 4 := Nat.le_of_not_lt fun hlt => hstops.first 4 hlt (.inl hrefuses)
    rcases hstops.refused with (hroom | hchunk') | hcrowded
    · simpa [supply] using hroom.2
    · cases hchunk'
    · simp only [Supply.Crowded, hchunk, Exhaust.wordBound] at hcrowded
      omega
  exact ⟨hrefuses, hseen, ⟨d, hdepart, hexit, hlines, hheld.trans hfull⟩, r, hr, hverdict, hcode,
    hstdout, hstderr⟩

end Machine
end HeapPressure
