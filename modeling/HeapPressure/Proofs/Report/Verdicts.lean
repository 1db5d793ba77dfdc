import HeapPressure.Report.Basic
import Mathlib.Data.Option.Basic

/-!
From the wait status of a process to the verdict on its run. The verdict hangs on the timeout, the
signal bits and the exit code alone, and nothing that is added to a report later changes it.
-/
namespace HeapPressure

/-- The low seven bits of a wait status. -/
def signalBits (raw : Int32) : UInt32 := raw.toUInt32 &&& 0x7F

/-- The second byte of a wait status. -/
def codeBits (raw : Int32) : UInt32 := (raw.toUInt32 >>> 8) &&& 0xFF

theorem toNat_signalBits (raw : Int32) : (signalBits raw).toNat = raw.toUInt32.toNat % 128 := by
  rw [signalBits, UInt32.toNat_and]
  exact Nat.and_two_pow_sub_one_eq_mod _ 7

theorem toNat_codeBits (raw : Int32) : (codeBits raw).toNat = raw.toUInt32.toNat / 256 % 256 := by
  have hshift : raw.toUInt32.toNat >>> 8 = raw.toUInt32.toNat / 256 :=
    Nat.shiftRight_eq_div_pow _ 8
  rw [codeBits, UInt32.toNat_and, UInt32.toNat_shiftRight, ← hshift]
  exact Nat.and_two_pow_sub_one_eq_mod _ 8

/-- Bit 7 and the bits from 16 on belong to neither part. -/
theorem bits_of_mask {raw raw' : Int32}
    (h : raw'.toUInt32 &&& 0xFF7F = raw.toUInt32 &&& 0xFF7F) :
    signalBits raw' = signalBits raw ∧ codeBits raw' = codeBits raw := by
  have hsignal (r : Int32) : signalBits r = (r.toUInt32 &&& 0xFF7F) &&& 0x7F := by
    rw [UInt32.and_assoc]
    rfl
  have hcode (r : Int32) : codeBits r = (r.toUInt32 &&& 0xFF7F) >>> 8 := by
    rw [UInt32.shiftRight_and]
    rfl
  rw [hsignal, hsignal, hcode, hcode, h]
  exact ⟨rfl, rfl⟩

namespace ExitOutcome

/-- All that a wait status can say. -/
inductive Says (raw : Int32) : ExitOutcome → Prop where
  | exited (h : signalBits raw = 0) : Says raw { code := some (.ofNat (codeBits raw).toNat) }
  | neither (h : signalBits raw = 0x7F) : Says raw {}
  | signalled (hzero : signalBits raw ≠ 0) (hfull : signalBits raw ≠ 0x7F) :
      Says raw { signal := some (.ofNat (signalBits raw).toNat) }

theorem says_ofStatus (raw : Int32) : Says raw (ofStatus raw) := by
  have hzero : signalBits raw = 0 ↔ (signalBits raw).toNat = 0 := UInt32.toNat_inj.symm
  have hfull : signalBits raw = 0x7F ↔ (signalBits raw).toNat = 127 := UInt32.toNat_inj.symm
  rw [ofStatus]
  simp only [← toNat_codeBits, ← toNat_signalBits, ← hzero, ← hfull]
  split
  · next h => exact .exited h
  split
  · next h => exact .neither h
  · next hz hf => exact .signalled hz hf

/-- Of the two parts at least one is absent, and both only in the third case. -/
theorem Says.code_or_signal {raw : Int32} {o : ExitOutcome} (h : Says raw o) :
    (o.code = none ∨ o.signal = none) ∧
      (o.code = none ∧ o.signal = none ↔ signalBits raw = 0x7F) := by
  cases h with
  | exited h => simp [h]
  | neither h => simp [h]
  | signalled _ h => simp [h]

theorem ofStatus_of_mask {raw raw' : Int32}
    (h : raw'.toUInt32 &&& 0xFF7F = raw.toUInt32 &&& 0xFF7F) :
    ofStatus raw' = ofStatus raw := by
  obtain ⟨hs, hc⟩ := bits_of_mask h
  simp only [ofStatus, ← toNat_signalBits, ← toNat_codeBits, hs, hc]

/-- Codes and signals as small as they are in a status are told apart. -/
theorem ofNat_inj_of_lt {m n : Nat} (hm : m < 256) (hn : n < 256) :
    Int32.ofNat m = Int32.ofNat n ↔ m = n := by
  rw [← Int32.toInt_inj, Int32.toInt_ofNat_of_lt (by omega), Int32.toInt_ofNat_of_lt (by omega)]
  omega

theorem code_ofStatus_eq_zero_iff {raw : Int32} :
    (ofStatus raw).signal = none ∧ (ofStatus raw).code = some 0 ↔
      signalBits raw = 0 ∧ codeBits raw = 0 := by
  have hlt : (codeBits raw).toNat < 256 := by
    rw [toNat_codeBits]
    omega
  have hcode : Int32.ofNat (codeBits raw).toNat = 0 ↔ codeBits raw = 0 := by
    rw [← UInt32.toNat_inj]
    exact ofNat_inj_of_lt (n := 0) hlt (by decide)
  have h := says_ofStatus raw
  generalize ofStatus raw = o at h
  cases h with
  | exited h => simp [h, hcode]
  | neither h => simp [h]
  | signalled hzero => simp [hzero]

theorem signal_ofStatus_eq_iff {raw : Int32} {n : Nat} (hzero : n ≠ 0) (hlt : n < 127) :
    (ofStatus raw).signal = some (.ofNat n) ↔ signalBits raw = .ofNat n := by
  have hbits : (signalBits raw).toNat < 128 := by
    rw [toNat_signalBits]
    omega
  have hn : signalBits raw = .ofNat n ↔ (signalBits raw).toNat = n := by
    rw [← UInt32.toNat_inj, UInt32.toNat_ofNat_of_lt' (Nat.lt_trans hlt (by decide))]
  rw [hn]
  have h := says_ofStatus raw
  generalize ofStatus raw = o at h
  cases h with
  | exited h => simp [h, hzero.symm]
  | neither h =>
    have : (0x7F : UInt32).toNat = 127 := rfl
    simp [h]
    omega
  | signalled => simp [ofNat_inj_of_lt (m := (signalBits raw).toNat) (n := n) (by omega) (by omega)]

end ExitOutcome

/-- All that can decide on a verdict. -/
inductive Decides (o : ExitOutcome) (timedOut : Bool) : Verdict → Prop where
  | timeout (ht : timedOut = true) : Decides o timedOut .timeLimitExceeded
  | memorySignal {s : Int32} (ht : timedOut = false) (hs : o.signal = some s)
      (h : s = 6 ∨ s = 9) : Decides o timedOut .memoryLimitExceeded
  | otherSignal {s : Int32} (ht : timedOut = false) (hs : o.signal = some s)
      (h : ¬(s = 6 ∨ s = 9)) : Decides o timedOut .runtimeError
  | success (ht : timedOut = false) (hs : o.signal = none) (hc : o.code = some 0) :
      Decides o timedOut .ok
  | failure (ht : timedOut = false) (hs : o.signal = none) (hc : o.code ≠ some 0) :
      Decides o timedOut .runtimeError

theorem isMemorySignal_iff {s : Int32} : isMemorySignal s = true ↔ s = 6 ∨ s = 9 := by
  simp [isMemorySignal]

theorem decides_classify (o : ExitOutcome) (timedOut : Bool) :
    Decides o timedOut (classify o timedOut) := by
  unfold classify
  split
  · next ht => exact .timeout ht
  · next ht =>
    have ht : timedOut = false := by simpa using ht
    split
    · next s hs =>
      split
      · next h => exact .memorySignal ht hs (isMemorySignal_iff.mp h)
      · next h => exact .otherSignal ht hs fun hm => h (isMemorySignal_iff.mpr hm)
    · next c hs hc =>
      split
      · next h => exact .success ht hs (by simpa [hc] using h)
      · next h => exact .failure ht hs (by simpa [hc] using h)
    · next hs hc => exact .failure ht hs (by simp [hc])

section
variable {o : ExitOutcome} {timedOut : Bool}

theorem classify_eq_timeLimitExceeded_iff :
    classify o timedOut = .timeLimitExceeded ↔ timedOut = true := by
  have h := decides_classify o timedOut
  generalize classify o timedOut = v at h
  cases h <;> simp [*]

theorem classify_eq_ok_iff :
    classify o timedOut = .ok ↔ timedOut = false ∧ o.signal = none ∧ o.code = some 0 := by
  have h := decides_classify o timedOut
  generalize classify o timedOut = v at h
  cases h <;> simp [*]

theorem classify_eq_memoryLimitExceeded_iff : classify o timedOut = .memoryLimitExceeded ↔
    timedOut = false ∧ (o.signal = some 6 ∨ o.signal = some 9) := by
  have h := decides_classify o timedOut
  generalize classify o timedOut = v at h
  cases h <;> simp [*]

theorem classify_eq_runtimeError_iff : classify o timedOut = .runtimeError ↔
    timedOut = false ∧ ¬(o.signal = none ∧ o.code = some 0) ∧
      ¬(o.signal = some 6 ∨ o.signal = some 9) := by
  have h := decides_classify o timedOut
  generalize classify o timedOut = v at h
  cases h <;> simp [*]

end

theorem Verdict.isAccepted_iff {v : Verdict} :
    v.isAccepted = true ↔ v = .ok ∨ v = .memoryLimitExceeded := by
  cases v <;> simp [isAccepted]

namespace Report

/-- What is added to a report: how long the run took and what it used, or what it wrote. -/
inductive Addition where
  | usage (wallTimeMillis : UInt64) (u : Usage)
  | output (stdout stderr : List UInt8)

def Addition.addTo (r : Report) : Addition → Report
  | .usage wallTimeMillis u => r.withUsage wallTimeMillis u
  | .output stdout stderr => r.withOutput stdout stderr

def Addition.usage? : Addition → Option (UInt64 × Usage)
  | .usage wallTimeMillis u => some (wallTimeMillis, u)
  | .output _ _ => none

def Addition.output? : Addition → Option (List UInt8 × List UInt8)
  | .usage _ _ => none
  | .output stdout stderr => some (stdout, stderr)

def extend (r : Report) (as : List Addition) : Report := as.foldl Addition.addTo r

/-- The last addition of a kind. -/
def lastOf {α : Type} (kind : Addition → Option α) (as : List Addition) : Option α :=
  as.reverse.findSome? kind

theorem lastOf_cons {α : Type} (kind : Addition → Option α) (a : Addition) (as : List Addition) :
    lastOf kind (a :: as) = (lastOf kind as).or (kind a) := by
  rw [lastOf, List.reverse_cons, List.findSome?_append, lastOf, List.findSome?_singleton]

/-- Of each kind the last addition counts, in whatever order they came. -/
theorem extend_eq (r : Report) (as : List Addition) :
    r.extend as =
      let used := (lastOf Addition.usage? as).elim r fun u => r.withUsage u.1 u.2
      (lastOf Addition.output? as).elim used fun w => used.withOutput w.1 w.2 := by
  induction as generalizing r with
  | nil => rfl
  | cons a as ih =>
    rw [extend, List.foldl_cons, ← extend, ih, lastOf_cons, lastOf_cons]
    cases a with
    | usage =>
      cases lastOf Addition.usage? as <;> cases lastOf Addition.output? as <;> rfl
    | output =>
      cases lastOf Addition.usage? as <;> cases lastOf Addition.output? as <;> rfl

theorem extend_keeps (r : Report) (as : List Addition) :
    (r.extend as).verdict = r.verdict ∧ (r.extend as).exitCode = r.exitCode ∧
      (r.extend as).signal = r.signal ∧ (r.extend as).memoryLimitBytes = r.memoryLimitBytes := by
  rw [extend_eq]
  cases lastOf Addition.usage? as <;> cases lastOf Addition.output? as <;>
    exact ⟨rfl, rfl, rfl, rfl⟩

/-- What a report shows of what was added to it: the numbers of the last usage and the heads of the
last output, zeros and nothing where there was none. -/
structure Shows (r : Report) (used : Option (UInt64 × Usage))
    (written : Option (List UInt8 × List UInt8)) : Prop where
  wallTimeMillis : r.wallTimeMillis = used.elim 0 fun u => u.1
  cpuTimeMicros : r.cpuTimeMicros = used.elim 0 fun u => u.2.cpuTimeMicros
  peakMemoryBytes : r.peakMemoryBytes = used.elim 0 fun u => u.2.peakMemoryBytes
  stdout : r.stdout = written.elim "" fun w => head w.1
  stderr : r.stderr = written.elim "" fun w => head w.2

theorem shows_extend (o : ExitOutcome) (timedOut : Bool) (limit : Option UInt64)
    (as : List Addition) : ((ofOutcome o timedOut limit).extend as).Shows
      (lastOf Addition.usage? as) (lastOf Addition.output? as) := by
  rw [extend_eq]
  cases lastOf Addition.usage? as <;> cases lastOf Addition.output? as <;>
    exact ⟨rfl, rfl, rfl, rfl, rfl⟩

/-- A report on a wait status, with anything added to it. It has an exit code or a signal or, where
the low seven bits are 127, neither. Its verdict follows from the timeout, these bits and the second
byte; no other bit matters. What is added leaves all this as it is, and of each kind of addition
the last one is shown, with its numbers or the heads of its streams. From any exit code and signal
the verdict follows in the same way. -/
theorem verdict_of_status (raw : Int32) (timedOut : Bool) (limit : Option UInt64)
    (as : List Addition) :
    let fresh := ofOutcome (.ofStatus raw) timedOut limit
    let r := fresh.extend as
    (ExitOutcome.Says raw ⟨r.exitCode, r.signal⟩ ∧ (r.exitCode = none ∨ r.signal = none) ∧
      (r.exitCode = none ∧ r.signal = none ↔ signalBits raw = 0x7F)) ∧
    (r.verdict = .timeLimitExceeded ↔ timedOut = true) ∧
    (r.verdict = .ok ↔ timedOut = false ∧ signalBits raw = 0 ∧ codeBits raw = 0) ∧
    (r.verdict = .memoryLimitExceeded ↔
      timedOut = false ∧ (signalBits raw = 6 ∨ signalBits raw = 9)) ∧
    (r.verdict = .runtimeError ↔ timedOut = false ∧ ¬(signalBits raw = 0 ∧ codeBits raw = 0) ∧
      ¬(signalBits raw = 6 ∨ signalBits raw = 9)) ∧
    (∀ raw' : Int32, raw'.toUInt32 &&& 0xFF7F = raw.toUInt32 &&& 0xFF7F →
      (ofOutcome (.ofStatus raw') timedOut limit).extend as = r) ∧
    (∀ later, (r.extend later).verdict = r.verdict ∧ (r.extend later).exitCode = r.exitCode ∧
      (r.extend later).signal = r.signal ∧ (r.extend later).memoryLimitBytes = limit) ∧
    r.Shows (lastOf Addition.usage? as) (lastOf Addition.output? as) ∧
    (∀ o : ExitOutcome, let v := ((ofOutcome o timedOut limit).extend as).verdict
      (v = .timeLimitExceeded ↔ timedOut = true) ∧
      (v = .ok ↔ timedOut = false ∧ o.signal = none ∧ o.code = some 0) ∧
      (v = .memoryLimitExceeded ↔ timedOut = false ∧ (o.signal = some 6 ∨ o.signal = some 9)) ∧
      (v = .runtimeError ↔ timedOut = false ∧ ¬(o.signal = none ∧ o.code = some 0) ∧
        ¬(o.signal = some 6 ∨ o.signal = some 9)) ∧
      (v.isAccepted = true ↔ v = .ok ∨ v = .memoryLimitExceeded)) := by
  intro fresh r
  obtain ⟨hverdict, hcode, hsignal, hlimit⟩ := extend_keeps fresh as
  have hok := @ExitOutcome.code_ofStatus_eq_zero_iff raw
  have h6 := @ExitOutcome.signal_ofStatus_eq_iff raw 6 (by decide) (by decide)
  have h9 := @ExitOutcome.signal_ofStatus_eq_iff raw 9 (by decide) (by decide)
  have hsays := ExitOutcome.says_ofStatus raw
  refine ⟨⟨?_, ?_⟩, ?_, ?_, ?_, ?_, fun raw' h => ?_, fun later => ?_,
    shows_extend _ timedOut limit as, fun o => ?_⟩
  · rw [hcode, hsignal]
    exact hsays
  · rw [hcode, hsignal]
    exact hsays.code_or_signal
  · rw [hverdict]
    exact classify_eq_timeLimitExceeded_iff
  · rw [hverdict, ← hok]
    exact classify_eq_ok_iff
  · rw [hverdict]
    exact classify_eq_memoryLimitExceeded_iff.trans (and_congr_right' (or_congr h6 h9))
  · rw [hverdict, ← hok]
    exact classify_eq_runtimeError_iff.trans
      (and_congr_right' (and_congr_right' (not_congr (or_congr h6 h9))))
  · rw [ExitOutcome.ofStatus_of_mask h]
  · obtain ⟨hv, hc, hs, hl⟩ := extend_keeps r later
    exact ⟨hv, hc, hs, hl.trans hlimit⟩
  · obtain ⟨hv, -⟩ := extend_keeps (ofOutcome o timedOut limit) as
    intro v
    have hv : v = classify o timedOut := hv
    rw [hv]
    exact ⟨classify_eq_timeLimitExceeded_iff, classify_eq_ok_iff,
      classify_eq_memoryLimitExceeded_iff, classify_eq_runtimeError_iff, Verdict.isAccepted_iff⟩

end Report
end HeapPressure
