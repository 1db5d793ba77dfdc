import HeapPressure.Settings.Json
import HeapPressure.Settings.Toml
import HeapPressure.Proofs.Log.Choices
import HeapPressure.Proofs.Settings.Limits

/-!
Settings survive both of their file forms, whatever the path of the fixture is spelled with.
-/
namespace HeapPressure.Settings

open Json (Document Value Members)
open Toml (Plain Holds Bare Writable documentChars pairChars)

theorem readPath_value (o : Option String) :
    readPath (Document.ofOption .string o).value = .ok o :=
  Value.optional_text .path o

theorem ofMembers_cons {d : Draft} {name : String} {v : Value} {rest : Members} :
    ofMembers d (.cons (some name) v rest) = (d.field name v).bind (ofMembers · rest) := rfl

theorem ofValue_document (s : Settings) : ofValue s.document.value = .ok s := by
  rw [document, Document.value, ofValue]
  simp only [Json.membersOf]
  simp only [ofMembers_cons, Draft.field, Value.unsigned64_value, readPath_value,
    Log.Choices.ofValue_document]
  rfl

theorem ofJson_compact (s : Settings) : ofJson s.document.compact = .ok s := by
  simp only [ofJson, Json.read_compact, ofValue_document]
  rfl

/-- The pairs at the top of the TOML form. -/
def pairs (s : Settings) : List (String × Plain) :=
  ("memory-limit-mb", .integer s.memoryLimitMb.toNat)
    :: ("timeout-secs", .integer s.timeoutSecs.toNat)
    :: (s.fixture.map fun path => ("fixture", Plain.string path)).toList

/-- Both integers have 63 bits. -/
def Fits (s : Settings) : Prop :=
  s.memoryLimitMb.toNat ≤ 0x7FFFFFFFFFFFFFFF ∧ s.timeoutSecs.toNat ≤ 0x7FFFFFFFFFFFFFFF

theorem integer_eq_ok {n : UInt64} (h : n.toNat ≤ 0x7FFFFFFFFFFFFFFF) :
    integer n = .ok (String.ofList (Plain.integer n.toNat).chars) := by
  rw [integer, if_pos (by omega)]
  rfl

theorem integer_eq_error {n : UInt64} (h : 0x7FFFFFFFFFFFFFFF < n.toNat) :
    integer n = .error .tooLarge := by
  rw [integer, if_neg (by omega)]

theorem toToml_of_fits {s : Settings} (h : s.Fits) :
    s.toToml = .ok (String.ofList (documentChars s.pairs "logging" s.logging.pairs)) := by
  obtain ⟨hl, ht⟩ := h
  have hpath : (s.fixture.map fun path => Toml.pairLine "fixture" (Toml.quote path)).getD "" =
      String.ofList ((s.fixture.map fun path => ("fixture", Plain.string path)).toList.flatMap
        pairChars) := Toml.optionalLine_eq "fixture" id s.fixture
  rw [toToml, integer_eq_ok hl, integer_eq_ok ht]
  simp only [bind, Except.bind, pure, Except.pure, Toml.pairLine_eq, Log.Choices.tomlLines_eq,
    hpath]
  refine congrArg Except.ok ?_
  rw [← String.toList_inj]
  simp [documentChars, pairs]

theorem toToml_of_not_fits {s : Settings} (h : ¬s.Fits) : s.toToml = .error .tooLarge := by
  rw [toToml]
  by_cases hl : s.memoryLimitMb.toNat ≤ 0x7FFFFFFFFFFFFFFF
  · have ht : 0x7FFFFFFFFFFFFFFF < s.timeoutSecs.toNat := by
      rw [Fits] at h
      omega
    rw [integer_eq_ok hl, integer_eq_error ht]
    rfl
  · rw [integer_eq_error (by omega)]
    rfl

theorem addEntry_memoryLimitMb {s : Settings} {n : UInt64} {e : Toml.Key × Toml.Node}
    (h : Holds ("memory-limit-mb", .integer n.toNat) e) :
    addEntry s e = .ok { s with memoryLimitMb := n } := by
  obtain ⟨hname, span, hnode⟩ := h
  rw [addEntry, hname, hnode]
  simp [Toml.readEntry, Plain.scalar, Toml.Node.unsigned64]

theorem addEntry_timeoutSecs {s : Settings} {n : UInt64} {e : Toml.Key × Toml.Node}
    (h : Holds ("timeout-secs", .integer n.toNat) e) :
    addEntry s e = .ok { s with timeoutSecs := n } := by
  obtain ⟨hname, span, hnode⟩ := h
  rw [addEntry, hname, hnode]
  simp [Toml.readEntry, Plain.scalar, Toml.Node.unsigned64]

theorem addEntry_fixture {s : Settings} {path : String} {e : Toml.Key × Toml.Node}
    (h : Holds ("fixture", .string path) e) :
    addEntry s e = .ok { s with fixture := some path } := by
  obtain ⟨hname, span, hnode⟩ := h
  rw [addEntry, hname, hnode]
  simp [Toml.readEntry, Plain.scalar, Toml.Node.text]

theorem addEntry_logging {s : Settings} {c : Log.Choices} {k : Toml.Key} {t : Toml.Table}
    (hk : k.name = "logging") (h : List.Forall₂ Holds c.pairs t.entries) :
    addEntry s (k, .table t) = .ok { s with logging := c } := by
  have hc : Log.Choices.ofNode (.table t) = .ok c := Log.Choices.foldlM_pairs h
  rw [addEntry, hk]
  simp [Toml.readEntry, hc]

theorem bare_logging : Bare "logging" := .of_all (by decide) (by decide)

theorem writable_pairs {s : Settings} (h : s.Fits) : Writable s.pairs := by
  obtain ⟨hl, ht⟩ := h
  have hlimit : Bare "memory-limit-mb" := .of_all (by decide) (by decide)
  have htimeout : Bare "timeout-secs" := .of_all (by decide) (by decide)
  have hfixture : Bare "fixture" := .of_all (by decide) (by decide)
  intro p hp
  simp only [pairs, List.mem_cons, Option.mem_toList, Option.map_eq_some_iff] at hp
  rcases hp with rfl | rfl | ⟨path, -, rfl⟩
  · exact ⟨hlimit, Nat.lt_succ_of_le hl⟩
  · exact ⟨htimeout, Nat.lt_succ_of_le ht⟩
  · exact ⟨hfixture, trivial⟩

theorem nodup_pairs (s : Settings) : ("logging" :: s.pairs.map Prod.fst).Nodup := by
  cases hf : s.fixture <;> simp [pairs, hf]

theorem ofTable_pairs {s : Settings} {t u : Toml.Table} {es : List (Toml.Key × Toml.Node)}
    {k : Toml.Key} (ht : t.entries = es ++ [(k, .table u)])
    (hes : List.Forall₂ Holds s.pairs es) (hk : k.name = "logging")
    (hu : List.Forall₂ Holds s.logging.pairs u.entries) : ofTable t = .ok s := by
  obtain ⟨memoryLimitMb, timeoutSecs, fixture, logging⟩ := s
  obtain _ | ⟨hl, _ | ⟨hs, hf⟩⟩ := hes
  rw [ofTable, ht, List.cons_append, List.cons_append,
    Toml.foldlM_cons_ok (addEntry_memoryLimitMb hl), Toml.foldlM_cons_ok (addEntry_timeoutSecs hs)]
  cases fixture with
  | none =>
    cases hf
    exact Toml.foldlM_cons_ok (addEntry_logging hk hu)
  | some path =>
    obtain _ | ⟨hf, ⟨⟩⟩ := hf
    rw [List.cons_append, Toml.foldlM_cons_ok (addEntry_fixture hf)]
    exact Toml.foldlM_cons_ok (addEntry_logging hk hu)

theorem ofToml_of_fits {s : Settings} (h : s.Fits) :
    ∃ text, s.toToml = .ok text ∧ ofToml text = s.validated.mapError .invalid := by
  obtain ⟨t, es, k, u, ht, htes, hes, hk, hu⟩ := Toml.read_document (writable_pairs h)
    bare_logging (Log.Choices.writable_pairs s.logging) (nodup_pairs s)
    (Log.Choices.nodup_pairs s.logging)
  refine ⟨_, toToml_of_fits h, ?_⟩
  rw [ofToml, ht]
  dsimp only
  rw [ofTable_pairs htes hes hk hu]

theorem fits_of_toToml {s : Settings} {text : String} (h : s.toToml = .ok text) : s.Fits := by
  by_contra hf
  rw [toToml_of_not_fits hf] at h
  cases h

/-- A limit whose bytes fit into 64 bits has far less than 63 bits. -/
theorem memoryLimitMb_of_validate {s : Settings} (h : s.validate = .ok ()) :
    s.memoryLimitMb.toNat ≤ 0x7FFFFFFFFFFFFFFF := by
  have hlimit := (validate_eq_ok_iff.mp h).memoryLimitMb_lt
  omega

/-- The JSON form is read back as it was. The TOML form exists as long as both integers have 63
bits, and is read back as it was, or refused for what validation finds. -/
theorem files_round_trip (s : Settings) :
    ofJson s.document.compact = .ok s ∧
    ((∃ text, s.toToml = .ok text) ↔
      s.memoryLimitMb.toNat ≤ 0x7FFFFFFFFFFFFFFF ∧ s.timeoutSecs.toNat ≤ 0x7FFFFFFFFFFFFFFF) ∧
    (∀ text, s.toToml = .ok text → ofToml text =
      match s.validate with
      | .ok () => .ok s
      | .error i => .error (.invalid i)) ∧
    (s.validate = .ok () →
      ((∃ e, s.toToml = .error e) ↔ 0x7FFFFFFFFFFFFFFF < s.timeoutSecs.toNat)) := by
  refine ⟨ofJson_compact s, ?_, ?_, ?_⟩
  · constructor
    · rintro ⟨text, ht⟩
      exact fits_of_toToml ht
    · intro hf
      exact ⟨_, toToml_of_fits hf⟩
  · intro text ht
    obtain ⟨text', ht', hread⟩ := ofToml_of_fits (fits_of_toToml ht)
    obtain rfl : text = text' := Except.ok.inj (ht.symm.trans ht')
    rw [hread, validated]
    cases s.validate with
    | ok => rfl
    | error i => rfl
  · intro hv
    have hl := memoryLimitMb_of_validate hv
    constructor
    · rintro ⟨e, he⟩
      by_contra hs
      have hf : s.Fits := ⟨hl, by omega⟩
      rw [toToml_of_fits hf] at he
      cases he
    · intro hs
      have hf : ¬s.Fits := fun hf => absurd hf.2 (by omega)
      exact ⟨_, toToml_of_not_fits hf⟩

end HeapPressure.Settings
