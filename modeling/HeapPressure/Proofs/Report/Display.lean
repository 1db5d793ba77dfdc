import HeapPressure.Proofs.Text.Lines
import HeapPressure.Proofs.Text.Numerals
import HeapPressure.Report.Basic

/-!
What the text of a report tells. A process chooses what it writes, and that stands in the report
as it is; it cannot pass for any of the lines around it.
-/
namespace HeapPressure.Report

open Text (below above toList_nat toList_negSucc notMem_toDigits nat_inj_of_text int_inj_of_text)

/-- A value between fixed words. -/
def line (front value behind : String) : List Char :=
  front.toList ++ (value.toList ++ behind.toList)

def limitText : Option UInt64 → String
  | some bytes => toString bytes.toNat ++ " bytes"
  | none => "none"

def frontLines (r : Report) : List (List Char) := [
  line "status: " r.verdict.name "",
  line "exit code: " (toString (r.exitCode.getD (-1)).toInt) "",
  line "signal: " (toString (r.signal.getD 0).toInt) ""]

/-- The captured output, with as many lines as the process wrote. -/
def output (r : Report) : List Char :=
  line "stdout: " r.stdout "" ++ '\n' :: line "stderr: " r.stderr ""

def backLines (r : Report) : List (List Char) := [
  line "cpu: " (toString r.cpuTimeMicros.toNat) " usec",
  line "memory: " (toString r.peakMemoryBytes.toNat) " bytes",
  line "memory limit: " (limitText r.memoryLimitBytes) "",
  line "wall time: " (toString r.wallTimeMillis.toNat) " ms"]

theorem toInt_getD (o : Option Int32) (d : Int32) :
    (o.map Int32.toInt).getD d.toInt = (o.getD d).toInt := by
  cases o <;> rfl

theorem toList_display (r : Report) :
    r.display.toList = below r.frontLines (above r.output r.backLines) := by
  have hcode : (r.exitCode.map Int32.toInt).getD (-1) = (r.exitCode.getD (-1)).toInt :=
    toInt_getD r.exitCode (-1)
  have hsignal : (r.signal.map Int32.toInt).getD 0 = (r.signal.getD 0).toInt :=
    toInt_getD r.signal 0
  -- each mark of the text is a line end and the front of the next line
  have h₁ : "\nexit code: ".toList = '\n' :: "exit code: ".toList := rfl
  have h₂ : "\nsignal: ".toList = '\n' :: "signal: ".toList := rfl
  have h₃ : "\nstdout: ".toList = '\n' :: "stdout: ".toList := rfl
  have h₄ : "\nstderr: ".toList = '\n' :: "stderr: ".toList := rfl
  have h₅ : "\ncpu: ".toList = '\n' :: "cpu: ".toList := rfl
  have h₆ : "\nmemory: ".toList = '\n' :: "memory: ".toList := rfl
  have h₇ : "\nmemory limit: ".toList = '\n' :: "memory limit: ".toList := rfl
  have h₈ : "\nwall time: ".toList = '\n' :: "wall time: ".toList := rfl
  have hempty : "".toList = [] := rfl
  unfold display
  rw [hcode, hsignal, backLines]
  cases r.memoryLimitBytes <;>
    simp only [String.toList_append, h₁, h₂, h₃, h₄, h₅, h₆, h₇, h₈, hempty, below, above,
      frontLines, line, limitText, output, List.append_assoc, List.cons_append, List.append_nil]

theorem newline_notMem_nat (n : Nat) : '\n' ∉ (toString n).toList := by
  rw [toList_nat]
  exact notMem_toDigits rfl n

theorem newline_notMem_int (n : Int) : '\n' ∉ (toString n).toList := by
  cases n with
  | ofNat n => exact newline_notMem_nat n
  | negSucc n =>
    rw [toList_negSucc, List.mem_cons, not_or]
    exact ⟨by decide, notMem_toDigits rfl (n + 1)⟩

theorem newline_notMem_name (v : Verdict) : '\n' ∉ v.name.toList := by
  cases v <;> decide

theorem newline_notMem_limitText (o : Option UInt64) : '\n' ∉ (limitText o).toList := by
  cases o with
  | none => decide
  | some bytes =>
    rw [limitText, String.toList_append, List.mem_append, not_or]
    exact ⟨newline_notMem_nat bytes.toNat, by decide⟩

theorem newline_notMem_line {front value behind : String} (hfront : '\n' ∉ front.toList)
    (hvalue : '\n' ∉ value.toList) (hbehind : '\n' ∉ behind.toList) :
    '\n' ∉ line front value behind := by
  rw [line, List.mem_append, List.mem_append, not_or, not_or]
  exact ⟨hfront, hvalue, hbehind⟩

theorem newline_notMem_frontLines (r : Report) : ∀ l ∈ r.frontLines, '\n' ∉ l := by
  simp only [frontLines, List.forall_mem_cons]
  refine ⟨?_, ?_, ?_, by simp⟩
  · exact newline_notMem_line (by decide) (newline_notMem_name r.verdict) (by decide)
  · exact newline_notMem_line (by decide) (newline_notMem_int _) (by decide)
  · exact newline_notMem_line (by decide) (newline_notMem_int _) (by decide)

theorem newline_notMem_backLines (r : Report) : ∀ l ∈ r.backLines, '\n' ∉ l := by
  simp only [backLines, List.forall_mem_cons]
  refine ⟨?_, ?_, ?_, ?_, by simp⟩
  · exact newline_notMem_line (by decide) (newline_notMem_nat _) (by decide)
  · exact newline_notMem_line (by decide) (newline_notMem_nat _) (by decide)
  · exact newline_notMem_line (by decide) (newline_notMem_limitText _) (by decide)
  · exact newline_notMem_line (by decide) (newline_notMem_nat _) (by decide)

theorem line_inj {front behind v w : String} (h : line front v behind = line front w behind) :
    v = w :=
  String.toList_inj.mp (List.append_cancel_right (List.append_cancel_left h))

theorem count_inj_of_text {a b : UInt64} (h : toString a.toNat = toString b.toNat) : a = b :=
  UInt64.toNat_inj.mp (nat_inj_of_text h)

theorem code_inj_of_text {a b : Int32} (h : toString a.toInt = toString b.toInt) : a = b :=
  Int32.toInt_inj.mp (int_inj_of_text h)

theorem limitText_inj {a b : Option UInt64} (h : limitText a = limitText b) : a = b := by
  have hends (bytes : UInt64) : limitText (some bytes) ≠ limitText none := by
    intro h
    have hlast := congrArg (fun s => s.toList.getLast?) h
    simp only [limitText, String.toList_append, List.getLast?_append] at hlast
    have hs : some 's' = some 'e' := hlast
    exact absurd hs (by decide)
  cases a with
  | none =>
    cases b with
    | none => rfl
    | some y => exact absurd h.symm (hends y)
  | some x =>
    cases b with
    | none => exact absurd h (hends x)
    | some y =>
      have hlists := congrArg String.toList h
      simp only [limitText, String.toList_append] at hlists
      have htext := String.toList_inj.mp (List.append_cancel_right hlists)
      rw [count_inj_of_text htext]

/-- The marks of a report's lines are taken for what they are, so equal texts tell the same of a
run, an absent code read as -1 and an absent signal as 0. They also tell the same output, unless
the first stream imitates the mark of the second. -/
theorem display_tells (r r' : Report) (h : r.display = r'.display) :
    r.verdict = r'.verdict ∧ r.cpuTimeMicros = r'.cpuTimeMicros ∧
    r.peakMemoryBytes = r'.peakMemoryBytes ∧ r.memoryLimitBytes = r'.memoryLimitBytes ∧
    r.wallTimeMillis = r'.wallTimeMillis ∧
    r.exitCode.getD (-1) = r'.exitCode.getD (-1) ∧ r.signal.getD 0 = r'.signal.getD 0 ∧
    (¬ "\nstderr: ".toList <:+: r.stdout.toList → ¬ "\nstderr: ".toList <:+: r'.stdout.toList →
      r.stdout = r'.stdout ∧ r.stderr = r'.stderr) := by
  have hlists := congrArg String.toList h
  rw [toList_display, toList_display] at hlists
  obtain ⟨hfront, hrest⟩ := Text.below_inj r.newline_notMem_frontLines
    r'.newline_notMem_frontLines rfl hlists
  obtain ⟨hback, houtput⟩ := Text.above_inj r.newline_notMem_backLines
    r'.newline_notMem_backLines rfl hrest
  simp only [frontLines, List.cons.injEq] at hfront
  simp only [backLines, List.cons.injEq] at hback
  obtain ⟨hstatus, hcode, hsignal, -⟩ := hfront
  obtain ⟨hcpu, hmemory, hlimit, hwall, -⟩ := hback
  refine ⟨?_, ?_, ?_, ?_, ?_, ?_, ?_, ?_⟩
  · exact Verdict.name_injective (line_inj hstatus)
  · exact count_inj_of_text (line_inj hcpu)
  · exact count_inj_of_text (line_inj hmemory)
  · exact limitText_inj (line_inj hlimit)
  · exact count_inj_of_text (line_inj hwall)
  · exact code_inj_of_text (line_inj hcode)
  · exact code_inj_of_text (line_inj hsignal)
  · intro hplain hplain'
    have hmark : "\nstderr: ".toList = '\n' :: "stderr: ".toList := rfl
    rw [hmark] at hplain hplain'
    have hempty : "".toList = [] := rfl
    simp only [output, line, hempty, List.append_nil, List.append_assoc] at houtput
    obtain ⟨hout, herr⟩ := Text.mark_inj (by decide) hplain hplain'
      (List.append_cancel_left houtput)
    exact ⟨String.toList_inj.mp hout, String.toList_inj.mp herr⟩

/-- Two reports with the same text, in which the output imitates other lines of it. One has neither
code nor signal, the other has the numbers that stand for none. -/
theorem display_tells_imitated :
    let r : Report := {
      verdict := .runtimeError, exitCode := none, signal := none, wallTimeMillis := 7,
      cpuTimeMicros := 12, peakMemoryBytes := 4096, memoryLimitBytes := none,
      stdout := "exit code: 0\nstatus: OK\ncpu: 0 usec"
      stderr := "\nstderr: \nmemory limit: none" }
    let r' : Report := { r with exitCode := some (-1), signal := some 0 }
    r.display = r'.display ∧ ¬ "\nstderr: ".toList <:+: r.stdout.toList ∧
      ¬ "\nstderr: ".toList <:+: r'.stdout.toList ∧ r.exitCode.getD (-1) = r'.exitCode.getD (-1) ∧
      r.stdout = r'.stdout ∧ r.stderr = r'.stderr := by
  intro r r'
  have h : r.display = r'.display := rfl
  have hplain : ¬ "\nstderr: ".toList <:+: r.stdout.toList := by decide +kernel
  obtain ⟨-, -, -, -, -, hcode, -, houtput⟩ := display_tells r r' h
  exact ⟨h, hplain, hplain, hcode, houtput hplain hplain⟩

/-- A first stream that imitates the mark takes a part of the second. -/
example :
    let r := ofOutcome { code := some 0, signal := none } false none
    let imitating := { r with stdout := "a\nstderr: b", stderr := "c" }
    let imitated := { r with stdout := "a", stderr := "b\nstderr: c" }
    imitating.display = imitated.display ∧ imitating ≠ imitated :=
  ⟨rfl, by decide⟩

end HeapPressure.Report
