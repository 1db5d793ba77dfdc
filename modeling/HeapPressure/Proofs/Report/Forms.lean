import HeapPressure.Report.Basic
import HeapPressure.Proofs.Json.Numbers
import Mathlib.Data.List.Forall2

/-!
What a report may look like in JSON, and which report it is. A record names its fields in any
order, with any others between them; a row has them all in their order.
-/
namespace HeapPressure.Report

open Json (Tree)

/-- What may stand for a value. -/
abbrev Form := Tree → Prop

/-- An integer literal, so without fraction or exponent and other than `-0`, between the bounds. -/
def IsInteger (low high : Int) : Form := fun t => ∃ n, low ≤ n ∧ n ≤ high ∧ t = .number (.ofInt n)

def IsNullOr (p : Form) : Form := fun t => t = .null ∨ p t

def IsString : Form := fun t => ∃ s, t = .string s

/-- A name by itself, or as the one key of an object that has null under it. -/
def Names (name : String) : Form := fun t => t = .string name ∨ t = .object [(name, .null)]

def IsVerdict : Form := fun t => ∃ name ∈
  ["OK", "MEMORY_LIMIT_EXCEEDED", "TIME_LIMIT_EXCEEDED", "RUNTIME_ERROR"], Names name t

/-- The fields of a report in their order, and what may stand in each. -/
def forms : List (String × Form) := [
  ("verdict", IsVerdict),
  ("exit_code", IsNullOr (IsInteger (-0x80000000) 0x7FFFFFFF)),
  ("signal", IsNullOr (IsInteger (-0x80000000) 0x7FFFFFFF)),
  ("wall_time_ms", IsInteger 0 0xFFFFFFFFFFFFFFFF),
  ("cpu_time_us", IsInteger 0 0xFFFFFFFFFFFFFFFF),
  ("peak_memory_bytes", IsInteger 0 0xFFFFFFFFFFFFFFFF),
  ("memory_limit_bytes", IsNullOr (IsInteger 0 0xFFFFFFFFFFFFFFFF)),
  ("stdout", IsString),
  ("stderr", IsString)]

/-- The fields that have to occur in a record. -/
def requiredNames : List String :=
  ["verdict", "wall_time_ms", "cpu_time_us", "peak_memory_bytes", "stdout", "stderr"]

/-- What the members of an object have under a name. -/
def valuesUnder (name : String) (ms : List (String × Tree)) : List Tree :=
  (ms.filter fun m => m.1 = name).map Prod.snd

inductive Intended : Tree → Prop where
  | record {ms : List (String × Tree)}
      (once : ∀ f ∈ forms, (valuesUnder f.1 ms).length ≤ 1)
      (occur : ∀ name ∈ requiredNames, valuesUnder name ms ≠ [])
      (admitted : ∀ f ∈ forms, ∀ t ∈ valuesUnder f.1 ms, f.2 t) : Intended (.object ms)
  | row {ts : List Tree} (h : List.Forall₂ (fun t f => f.2 t) ts forms) : Intended (.array ts)

def IsCounter (n : UInt64) : Form := fun t => t = .number (.ofInt n.toNat)

def IsSigned (n : Int32) : Form := fun t => t = .number (.ofInt n.toInt)

def IsText (s : String) : Form := fun t => t = .string s

/-- Null stands for what is absent. -/
def Optionally {α : Type} (form : α → Form) : Option α → Form
  | none => fun t => t = .null
  | some a => form a

/-- The fields of this report, and what stands for the value of each. -/
def spelled (r : Report) : List (String × Form) := [
  ("verdict", Names r.verdict.name),
  ("exit_code", Optionally IsSigned r.exitCode),
  ("signal", Optionally IsSigned r.signal),
  ("wall_time_ms", IsCounter r.wallTimeMillis),
  ("cpu_time_us", IsCounter r.cpuTimeMicros),
  ("peak_memory_bytes", IsCounter r.peakMemoryBytes),
  ("memory_limit_bytes", Optionally IsCounter r.memoryLimitBytes),
  ("stdout", IsText r.stdout),
  ("stderr", IsText r.stderr)]

/-- One value in the form, or none where null is of the form. -/
def Told (p : Form) (ts : List Tree) : Prop := (∃ t, ts = [t] ∧ p t) ∨ ts = [] ∧ p .null

/-- The report that is written: what is absent from a record is null. -/
def WrittenIn (r : Report) : Tree → Prop
  | .object ms => ∀ f ∈ r.spelled, Told f.2 (valuesUnder f.1 ms)
  | .array ts => List.Forall₂ (fun t f => f.2 t) ts r.spelled
  | _ => False

section Forms

variable {α : Type} {form : α → Form} {p : Form} {ts : List Tree}

/-- At most one value, of the form; none where null is of the form. -/
structure Admits (p : Form) (ts : List Tree) : Prop where
  length_le : ts.length ≤ 1
  admitted : ∀ t ∈ ts, p t
  absent : ts = [] → p .null

theorem exists_told_iff (h : ∀ t, (∃ a, form a t) ↔ p t) :
    (∃ a, Told (form a) ts) ↔ Admits p ts := by
  constructor
  · rintro ⟨a, ⟨t, rfl, ha⟩ | ⟨rfl, ha⟩⟩
    · exact ⟨by simp, by simpa using (h t).mp ⟨a, ha⟩, by simp⟩
    · exact ⟨by simp, by simp, fun _ => (h .null).mp ⟨a, ha⟩⟩
  · rintro ⟨hlen, hts, hnil⟩
    match ts with
    | [] =>
      obtain ⟨a, ha⟩ := (h .null).mpr (hnil rfl)
      exact ⟨a, .inr ⟨rfl, ha⟩⟩
    | [t] =>
      obtain ⟨a, ha⟩ := (h t).mpr (hts t List.mem_cons_self)
      exact ⟨a, .inl ⟨t, rfl, ha⟩⟩

theorem exists_optionally_iff (h : ∀ t, (∃ a, form a t) ↔ p t) (t : Tree) :
    (∃ o, Optionally form o t) ↔ IsNullOr p t := by
  rw [IsNullOr, ← h]
  constructor
  · rintro ⟨_ | a, ha⟩
    · exact .inl ha
    · exact .inr ⟨a, ha⟩
  · rintro (ha | ⟨a, ha⟩)
    · exact ⟨none, ha⟩
    · exact ⟨some a, ha⟩

theorem exists_isCounter_iff (t : Tree) :
    (∃ n, IsCounter n t) ↔ IsInteger 0 0xFFFFFFFFFFFFFFFF t := by
  constructor
  · rintro ⟨n, hn⟩
    have h := n.toNat_lt
    exact ⟨n.toNat, by omega, by omega, hn⟩
  · rintro ⟨n, hl, hh, hn⟩
    obtain ⟨k, rfl⟩ := Int.eq_ofNat_of_zero_le hl
    refine ⟨.ofNat k, ?_⟩
    rw [IsCounter, UInt64.toNat_ofNat_of_lt' (by simp only [UInt64.size]; omega)]
    exact hn

theorem exists_isSigned_iff (t : Tree) :
    (∃ n, IsSigned n t) ↔ IsInteger (-0x80000000) 0x7FFFFFFF t := by
  constructor
  · rintro ⟨n, hn⟩
    have hl := n.le_toInt
    have hh := n.toInt_lt
    exact ⟨n.toInt, by omega, by omega, hn⟩
  · rintro ⟨n, hl, hh, hn⟩
    refine ⟨.ofInt n, ?_⟩
    rw [IsSigned, Int32.toInt_ofInt_of_le hl (by omega)]
    exact hn

theorem exists_names_iff (t : Tree) : (∃ v : Verdict, Names v.name t) ↔ IsVerdict t := by
  constructor
  · rintro ⟨v, hv⟩
    exact ⟨v.name, by cases v <;> decide, hv⟩
  · rintro ⟨name, hname, ht⟩
    simp only [List.mem_cons, List.not_mem_nil, or_false] at hname
    rcases hname with rfl | rfl | rfl | rfl
    · exact ⟨.ok, ht⟩
    · exact ⟨.memoryLimitExceeded, ht⟩
    · exact ⟨.timeLimitExceeded, ht⟩
    · exact ⟨.runtimeError, ht⟩

theorem exists_isText_iff (t : Tree) : (∃ s, IsText s t) ↔ IsString t := Iff.rfl

theorem isNullOr_null : IsNullOr p .null := .inl rfl

theorem not_isInteger_null {low high : Int} : ¬IsInteger low high .null := by
  rintro ⟨n, -, -, hn⟩
  cases hn

theorem not_isString_null : ¬IsString .null := by
  rintro ⟨s, hs⟩
  cases hs

theorem not_isVerdict_null : ¬IsVerdict .null := by
  rintro ⟨name, -, h | h⟩ <;> cases h

end Forms

/-- Null may stand just where a record may leave the field out. -/
theorem null_iff : ∀ f ∈ forms, f.2 .null ↔ f.1 ∉ requiredNames := by
  simp [forms, requiredNames, isNullOr_null, not_isInteger_null, not_isString_null,
    not_isVerdict_null]

theorem exists_form_of_required : ∀ name ∈ requiredNames, ∃ f ∈ forms, f.1 = name := by
  simp [forms, requiredNames]

theorem intended_object_iff {ms : List (String × Tree)} :
    Intended (.object ms) ↔ ∀ f ∈ forms, Admits f.2 (valuesUnder f.1 ms) := by
  constructor
  · rintro ⟨once, occur, admitted⟩ f hf
    refine ⟨once f hf, admitted f hf, fun hnil => (null_iff f hf).mpr fun hname => ?_⟩
    exact occur f.1 hname hnil
  · refine fun h => .record (fun f hf => (h f hf).length_le) (fun name hname hnil => ?_)
      fun f hf => (h f hf).admitted
    obtain ⟨f, hf, rfl⟩ := exists_form_of_required name hname
    exact (null_iff f hf).mp ((h f hf).absent hnil) hname

theorem exists_writtenIn_object_iff {ms : List (String × Tree)} :
    (∃ r : Report, r.WrittenIn (.object ms)) ↔ Intended (.object ms) := by
  rw [intended_object_iff]
  simp only [forms, List.forall_mem_cons, ← exists_told_iff exists_names_iff,
    ← exists_told_iff (exists_optionally_iff exists_isSigned_iff),
    ← exists_told_iff (exists_optionally_iff exists_isCounter_iff),
    ← exists_told_iff exists_isCounter_iff, ← exists_told_iff exists_isText_iff]
  constructor
  · rintro ⟨r, h⟩
    simp only [WrittenIn, spelled, List.forall_mem_cons] at h
    obtain ⟨h₁, h₂, h₃, h₄, h₅, h₆, h₇, h₈, h₉, hnil⟩ := h
    exact ⟨⟨_, h₁⟩, ⟨_, h₂⟩, ⟨_, h₃⟩, ⟨_, h₄⟩, ⟨_, h₅⟩, ⟨_, h₆⟩, ⟨_, h₇⟩, ⟨_, h₈⟩, ⟨_, h₉⟩, by simp⟩
  · rintro ⟨⟨v, h₁⟩, ⟨c, h₂⟩, ⟨s, h₃⟩, ⟨w, h₄⟩, ⟨u, h₅⟩, ⟨m, h₆⟩, ⟨l, h₇⟩, ⟨o, h₈⟩, ⟨e, h₉⟩, -⟩
    refine ⟨⟨v, c, s, w, u, m, l, o, e⟩, ?_⟩
    simp only [WrittenIn, spelled, List.forall_mem_cons]
    exact ⟨h₁, h₂, h₃, h₄, h₅, h₆, h₇, h₈, h₉, by simp⟩

/-- A row of nine, place by place. -/
theorem forall₂_nine_iff {α β : Type} {R : α → β → Prop} {as : List α}
    {b₁ b₂ b₃ b₄ b₅ b₆ b₇ b₈ b₉ : β} :
    List.Forall₂ R as [b₁, b₂, b₃, b₄, b₅, b₆, b₇, b₈, b₉] ↔
      ∃ a₁ a₂ a₃ a₄ a₅ a₆ a₇ a₈ a₉, as = [a₁, a₂, a₃, a₄, a₅, a₆, a₇, a₈, a₉] ∧ R a₁ b₁ ∧ R a₂ b₂ ∧
        R a₃ b₃ ∧ R a₄ b₄ ∧ R a₅ b₅ ∧ R a₆ b₆ ∧ R a₇ b₇ ∧ R a₈ b₈ ∧ R a₉ b₉ := by
  constructor
  · intro h
    obtain _ | ⟨h₁, _ | ⟨h₂, _ | ⟨h₃, _ | ⟨h₄, _ | ⟨h₅, h⟩⟩⟩⟩⟩ := h
    obtain _ | ⟨h₆, _ | ⟨h₇, _ | ⟨h₈, _ | ⟨h₉, hnil⟩⟩⟩⟩ := h
    cases hnil
    exact ⟨_, _, _, _, _, _, _, _, _, rfl, h₁, h₂, h₃, h₄, h₅, h₆, h₇, h₈, h₉⟩
  · rintro ⟨_, _, _, _, _, _, _, _, _, rfl, h₁, h₂, h₃, h₄, h₅, h₆, h₇, h₈, h₉⟩
    exact .cons h₁ (.cons h₂ (.cons h₃ (.cons h₄ (.cons h₅ (.cons h₆ (.cons h₇ (.cons h₈ (.cons h₉
      .nil))))))))

theorem exists_writtenIn_array_iff {ts : List Tree} :
    (∃ r : Report, r.WrittenIn (.array ts)) ↔ Intended (.array ts) := by
  have hrow : Intended (.array ts) ↔ List.Forall₂ (fun t f => f.2 t) ts forms :=
    ⟨fun | .row h => h, .row⟩
  simp only [hrow, forms, WrittenIn, spelled, forall₂_nine_iff, ← exists_names_iff,
    ← exists_optionally_iff exists_isSigned_iff, ← exists_optionally_iff exists_isCounter_iff,
    ← exists_isCounter_iff, ← exists_isText_iff]
  constructor
  · rintro ⟨r, t₁, t₂, t₃, t₄, t₅, t₆, t₇, t₈, t₉, rfl, h₁, h₂, h₃, h₄, h₅, h₆, h₇, h₈, h₉⟩
    exact ⟨t₁, t₂, t₃, t₄, t₅, t₆, t₇, t₈, t₉, rfl, ⟨_, h₁⟩, ⟨_, h₂⟩, ⟨_, h₃⟩, ⟨_, h₄⟩, ⟨_, h₅⟩,
      ⟨_, h₆⟩, ⟨_, h₇⟩, ⟨_, h₈⟩, ⟨_, h₉⟩⟩
  · rintro ⟨t₁, t₂, t₃, t₄, t₅, t₆, t₇, t₈, t₉, rfl, ⟨v, h₁⟩, ⟨c, h₂⟩, ⟨s, h₃⟩, ⟨w, h₄⟩, ⟨u, h₅⟩,
      ⟨m, h₆⟩, ⟨l, h₇⟩, ⟨o, h₈⟩, ⟨e, h₉⟩⟩
    exact ⟨⟨v, c, s, w, u, m, l, o, e⟩, t₁, t₂, t₃, t₄, t₅, t₆, t₇, t₈, t₉, rfl, h₁, h₂, h₃, h₄,
      h₅, h₆, h₇, h₈, h₉⟩

/-- What is intended is what some report is written as. -/
theorem exists_writtenIn_iff {t : Tree} : (∃ r : Report, r.WrittenIn t) ↔ Intended t := by
  cases t with
  | object ms => exact exists_writtenIn_object_iff
  | array ts => exact exists_writtenIn_array_iff
  | null | boolean | number | string =>
    refine ⟨fun ⟨_, h⟩ => h.elim, fun h => ?_⟩
    cases h

end HeapPressure.Report
