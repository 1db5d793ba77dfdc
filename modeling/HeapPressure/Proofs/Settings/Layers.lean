import HeapPressure.Proofs.CommandLine.Arguments
import HeapPressure.Proofs.Settings.Overrides
import HeapPressure.Proofs.Settings.Reading
import HeapPressure.Proofs.Toml.Reading

/-!
The layers that settings come from: options before variables, those before the settings file, and
that before the defaults. Each field is settled by itself.
-/
namespace HeapPressure.Settings

open CommandLine (Chosen)
open Toml (Key Node Table Gives Reads)

/-- What a settings file says, where it says something. -/
structure Layer where
  memoryLimitMb : Option UInt64 := none
  timeoutSecs : Option UInt64 := none
  fixture : Option String := none
  level : Option Log.Level := none
  format : Option Log.Format := none

/-- The entries of a file with a layer in them. -/
structure Layer.SaidIn (l : Layer) (es : List (Key × Node)) : Prop where
  known : ∀ e ∈ es, e.1.name ∈ ["memory-limit-mb", "timeout-secs", "fixture", "logging"]
  memoryLimitMb : Gives es "memory-limit-mb" (Reads Node.unsigned64) none l.memoryLimitMb
  timeoutSecs : Gives es "timeout-secs" (Reads Node.unsigned64) none l.timeoutSecs
  fixture : Gives es "fixture" (Reads (Node.text .path)) none l.fixture
  logging : Gives es "logging" (fun c n => Log.Choices.SaidAt c n) {} ⟨l.level, l.format⟩

/-- The settings that a layer makes of the defaults. -/
def Layer.settings (l : Layer) : Settings where
  memoryLimitMb := l.memoryLimitMb.getD 256
  timeoutSecs := l.timeoutSecs.getD 15
  fixture := l.fixture
  logging := ⟨l.level, l.format⟩

theorem ofTable_eq_ok_iff_saidIn {t : Table} (ht : t.Sound) {s : Settings} :
    ofTable t = .ok s ↔ ∃ l : Layer, l.SaidIn t.entries ∧ s = l.settings := by
  have hlogging {c : Log.Choices} : ∀ e ∈ t.entries, e.1.name = "logging" →
      (Log.Choices.ofNode e.2 = .ok c ↔ c.SaidAt e.2) :=
    fun e he _ => Log.Choices.ofNode_eq_ok_iff_saidAt (ht.nodes e he)
  rw [ofTable, foldlM_eq_ok_iff_readIn ht.names_nodup]
  constructor
  · rintro ⟨hknown, hmb, hsecs, hpath, hlog⟩
    obtain ⟨mb, hmb, hmb'⟩ := hmb.exists_option
    obtain ⟨secs, hsecs, hsecs'⟩ := hsecs.exists_option
    refine ⟨⟨mb, secs, s.fixture, s.logging.level, s.logging.format⟩,
      ⟨hknown, hmb, hsecs, hpath, hlog.imp fun e he hn => (hlogging e he hn).mp⟩, ?_⟩
    obtain ⟨_, _, path, choices⟩ := s
    cases hmb'
    cases hsecs'
    rfl
  · rintro ⟨l, ⟨hknown, hmb, hsecs, hpath, hlog⟩, rfl⟩
    exact ⟨hknown, hmb.getD, hsecs.getD, hpath, hlog.imp fun e he hn => (hlogging e he hn).mpr⟩

/-- The first layer that has a value. -/
inductive FirstOf {α : Type} (reads : String → Option α) (flag var : Option String)
    (file : Option α) (default : α) : α → Prop where
  | flag {s : String} {a : α} (hflag : flag = some s) (h : reads s = some a) :
      FirstOf reads flag var file default a
  | var {s : String} {a : α} (hflag : flag = none) (hvar : var = some s) (h : reads s = some a) :
      FirstOf reads flag var file default a
  | file {a : α} (hflag : flag = none) (hvar : var = none) (h : file = some a) :
      FirstOf reads flag var file default a
  | default (hflag : flag = none) (hvar : var = none) (h : file = none) :
      FirstOf reads flag var file default default

theorem firstOf_iff {α : Type} {reads : String → Option α} {flag var : Option String}
    {o file : Option α} {default a : α} (ho : Chosen reads flag var o) :
    FirstOf reads flag var file default a ↔ a = (o.or file).getD default := by
  constructor
  · intro h
    cases ho <;> cases h <;> simp_all
  · rintro rfl
    cases ho with
    | flag hf h => exact .flag hf h
    | var hf hv h => exact .var hf hv h
    | neither hf hv =>
      cases file with
      | some a => exact .file hf hv rfl
      | none => exact .default hf hv rfl

end HeapPressure.Settings
