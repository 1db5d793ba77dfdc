import HeapPressure.Settings.Json
import HeapPressure.Settings.Toml
import HeapPressure.Proofs.Log.Reading

/-!
The settings that a document gives. Every entry has to be a known field with a value of its type;
a field without an entry keeps its default. What the JSON form gives is the same.
-/
namespace HeapPressure.Settings

open Toml (Key Node Table Gives Reads names)

/-- What is written in the entries of a document. -/
structure WrittenIn (s : Settings) (es : List (Key × Node)) : Prop where
  known : ∀ e ∈ es, e.1.name ∈ fieldNames
  memoryLimitMb : Gives es "memory-limit-mb" (fun mb n => n.Is (.integer mb.toNat)) 256
    s.memoryLimitMb
  timeoutSecs : Gives es "timeout-secs" (fun secs n => n.Is (.integer secs.toNat)) 15 s.timeoutSecs
  fixture : Gives es "fixture" (fun path n => n.Spells id path) none s.fixture
  logging : Gives es "logging" (fun choices n => choices.WrittenAt n) {} s.logging

/-- What is read in the entries of a document. -/
structure ReadIn (s : Settings) (es : List (Key × Node)) : Prop where
  known : ∀ e ∈ es, e.1.name ∈ fieldNames
  memoryLimitMb : Gives es "memory-limit-mb" (fun mb n => n.unsigned64 = .ok mb) 256 s.memoryLimitMb
  timeoutSecs : Gives es "timeout-secs" (fun secs n => n.unsigned64 = .ok secs) 15 s.timeoutSecs
  fixture : Gives es "fixture" (Reads (Node.text .path)) none s.fixture
  logging : Gives es "logging" (fun choices n => Log.Choices.ofNode n = .ok choices) {} s.logging

/-- Entries of a sound table with a table of its own for the log choices, which are scalars. -/
structure Regular (es : List (Key × Node)) : Prop where
  names_nodup : (names es).Nodup
  nodes : ∀ e ∈ es, e.2.Sound
  logging : ∀ e ∈ es, e.1.name = "logging" → Log.Choices.ScalarsAt e.2

/-- All that reading an entry can do. -/
inductive Adds (s : Settings) : Key × Node → Settings → Prop where
  | memoryLimitMb {span : Toml.Span} {n : Node} {mb : UInt64} (h : n.unsigned64 = .ok mb) :
      Adds s (⟨"memory-limit-mb", span⟩, n) { s with memoryLimitMb := mb }
  | timeoutSecs {span : Toml.Span} {n : Node} {secs : UInt64} (h : n.unsigned64 = .ok secs) :
      Adds s (⟨"timeout-secs", span⟩, n) { s with timeoutSecs := secs }
  | fixture {span : Toml.Span} {n : Node} {path : String} (h : n.text .path = .ok path) :
      Adds s (⟨"fixture", span⟩, n) { s with fixture := some path }
  | logging {span : Toml.Span} {n : Node} {choices : Log.Choices}
      (h : Log.Choices.ofNode n = .ok choices) :
      Adds s (⟨"logging", span⟩, n) { s with logging := choices }

variable {s s' : Settings} {e : Key × Node} {es es' : List (Key × Node)}

theorem addEntry_eq_ok_iff : addEntry s e = .ok s' ↔ Adds s e s' := by
  constructor
  · intro h
    obtain ⟨⟨name, span⟩, n⟩ := e
    unfold addEntry at h
    dsimp only at h
    split at h
    · obtain ⟨mb, hmb, hs⟩ := bind_eq_ok_iff.mp h
      cases hs
      exact .memoryLimitMb (Toml.readEntry_eq_ok_iff.mp hmb)
    · obtain ⟨secs, hsecs, hs⟩ := bind_eq_ok_iff.mp h
      cases hs
      exact .timeoutSecs (Toml.readEntry_eq_ok_iff.mp hsecs)
    · obtain ⟨path, hpath, hs⟩ := bind_eq_ok_iff.mp h
      cases hs
      exact .fixture (Toml.readEntry_eq_ok_iff.mp hpath)
    · obtain ⟨choices, hchoices, hs⟩ := bind_eq_ok_iff.mp h
      cases hs
      exact .logging (Toml.readEntry_eq_ok_iff.mp hchoices)
    · cases h
  · intro h
    cases h with
    | memoryLimitMb h => simp [addEntry, Toml.readEntry_eq_ok_iff.mpr h]
    | timeoutSecs h => simp [addEntry, Toml.readEntry_eq_ok_iff.mpr h]
    | fixture h => simp [addEntry, Toml.readEntry_eq_ok_iff.mpr h]
    | logging h => simp [addEntry, Toml.readEntry_eq_ok_iff.mpr h]

theorem Regular.perm (hp : es.Perm es') (h : Regular es) : Regular es' where
  names_nodup := (hp.map _).nodup_iff.mp h.names_nodup
  nodes e he := h.nodes e (hp.mem_iff.mpr he)
  logging e he := h.logging e (hp.mem_iff.mpr he)

theorem WrittenIn.perm (hp : es.Perm es') (h : s.WrittenIn es) : s.WrittenIn es' where
  known e he := h.known e (hp.mem_iff.mpr he)
  memoryLimitMb := h.memoryLimitMb.perm hp
  timeoutSecs := h.timeoutSecs.perm hp
  fixture := h.fixture.perm hp
  logging := h.logging.perm hp

theorem ReadIn.unique (h : s.ReadIn es) (h' : s'.ReadIn es) : s = s' := by
  obtain ⟨mb, secs, path, choices⟩ := s
  obtain ⟨mb', secs', path', choices'⟩ := s'
  have hmb : mb = mb' :=
    h.memoryLimitMb.unique h'.memoryLimitMb fun ha hb => Except.ok.inj (ha.symm.trans hb)
  have hsecs : secs = secs' :=
    h.timeoutSecs.unique h'.timeoutSecs fun ha hb => Except.ok.inj (ha.symm.trans hb)
  have hpath : path = path' := h.fixture.unique h'.fixture Reads.unique
  have hchoices : choices = choices' :=
    h.logging.unique h'.logging fun ha hb => Except.ok.inj (ha.symm.trans hb)
  rw [hmb, hsecs, hpath, hchoices]

theorem addEntry_of_readIn (h : s'.ReadIn es) (he : e ∈ es) : ∃ s₁, addEntry s e = .ok s₁ := by
  have hmb := h.memoryLimitMb.present e he
  have hsecs := h.timeoutSecs.present e he
  have hpath := h.fixture.present e he
  have hchoices := h.logging.present e he
  have hknown := h.known e he
  obtain ⟨⟨name, span⟩, n⟩ := e
  simp only [fieldNames, List.mem_cons, List.not_mem_nil, or_false] at hknown
  rcases hknown with rfl | rfl | rfl | rfl
  · exact ⟨_, addEntry_eq_ok_iff.mpr (.memoryLimitMb (hmb rfl))⟩
  · exact ⟨_, addEntry_eq_ok_iff.mpr (.timeoutSecs (hsecs rfl))⟩
  · obtain ⟨path, -, hpath⟩ := hpath rfl
    exact ⟨_, addEntry_eq_ok_iff.mpr (.fixture hpath)⟩
  · exact ⟨_, addEntry_eq_ok_iff.mpr (.logging (hchoices rfl))⟩

theorem readIn_of_foldlM (hn : (names es).Nodup) (h : es.foldlM addEntry {} = .ok s) :
    s.ReadIn es := by
  refine ⟨Toml.forall_of_foldlM (fun ha => ?_) h,
    Toml.gives_of_foldlM memoryLimitMb (fun e he ha hname => ?_) (fun ha hname => ?_) hn h,
    Toml.gives_of_foldlM timeoutSecs (fun e he ha hname => ?_) (fun ha hname => ?_) hn h,
    Toml.gives_of_foldlM fixture (fun e he ha hname => ?_) (fun ha hname => ?_) hn h,
    Toml.gives_of_foldlM logging (fun e he ha hname => ?_) (fun ha hname => ?_) hn h⟩
  · cases addEntry_eq_ok_iff.mp ha <;> simp [fieldNames]
  · cases addEntry_eq_ok_iff.mp ha with
    | memoryLimitMb hmb => exact hmb
    | timeoutSecs | fixture | logging => simp at hname
  · cases addEntry_eq_ok_iff.mp ha with
    | memoryLimitMb => exact absurd rfl hname
    | timeoutSecs | fixture | logging => rfl
  · cases addEntry_eq_ok_iff.mp ha with
    | timeoutSecs hsecs => exact hsecs
    | memoryLimitMb | fixture | logging => simp at hname
  · cases addEntry_eq_ok_iff.mp ha with
    | timeoutSecs => exact absurd rfl hname
    | memoryLimitMb | fixture | logging => rfl
  · cases addEntry_eq_ok_iff.mp ha with
    | fixture hpath => exact ⟨_, rfl, hpath⟩
    | memoryLimitMb | timeoutSecs | logging => simp at hname
  · cases addEntry_eq_ok_iff.mp ha with
    | fixture => exact absurd rfl hname
    | memoryLimitMb | timeoutSecs | logging => rfl
  · cases addEntry_eq_ok_iff.mp ha with
    | logging hchoices => exact hchoices
    | memoryLimitMb | timeoutSecs | fixture => simp at hname
  · cases addEntry_eq_ok_iff.mp ha with
    | logging => exact absurd rfl hname
    | memoryLimitMb | timeoutSecs | fixture => rfl

theorem foldlM_eq_ok_iff_readIn (hn : (names es).Nodup) :
    es.foldlM addEntry {} = .ok s ↔ s.ReadIn es := by
  constructor
  · exact readIn_of_foldlM hn
  · intro h
    obtain ⟨s', hs'⟩ := Toml.exists_foldlM (fun _ _ he => addEntry_of_readIn h he) {}
    rw [hs', (readIn_of_foldlM hn hs').unique h]

/-- Read and written are the same where the log choices are scalars. -/
theorem readIn_iff_writtenIn (hr : Regular es) : s.ReadIn es ↔ s.WrittenIn es := by
  have hint {k : UInt64} : ∀ e ∈ es, e.2.unsigned64 = .ok k ↔ e.2.Is (.integer k.toNat) :=
    fun e he => Node.unsigned64_eq_ok_iff (hr.nodes e he)
  have hpath {o : Option String} : ∀ e ∈ es,
      Reads (Node.text .path) o e.2 ↔ e.2.Spells id o :=
    fun e _ => exists_congr fun path => and_congr_right fun _ => Node.text_eq_ok_iff
  have hlog {c : Log.Choices} : ∀ e ∈ es, e.1.name = "logging" →
      (Log.Choices.ofNode e.2 = .ok c ↔ c.WrittenAt e.2) :=
    fun e he hname => Log.Choices.ofNode_eq_ok_iff (hr.nodes e he) (hr.logging e he hname)
  constructor
  · rintro ⟨hknown, hmb, hsecs, hfixture, hlogging⟩
    exact ⟨hknown, hmb.imp fun e he _ => (hint e he).mp, hsecs.imp fun e he _ => (hint e he).mp,
      hfixture.imp fun e he _ => (hpath e he).mp, hlogging.imp fun e he hn => (hlog e he hn).mp⟩
  · rintro ⟨hknown, hmb, hsecs, hfixture, hlogging⟩
    exact ⟨hknown, hmb.imp fun e he _ => (hint e he).mpr,
      hsecs.imp fun e he _ => (hint e he).mpr, hfixture.imp fun e he _ => (hpath e he).mpr,
      hlogging.imp fun e he hn => (hlog e he hn).mpr⟩

theorem foldlM_eq_ok_iff (hr : Regular es) :
    es.foldlM addEntry {} = .ok s ↔ s.WrittenIn es :=
  (foldlM_eq_ok_iff_readIn hr.names_nodup).trans (readIn_iff_writtenIn hr)

namespace Draft

/-- The field under a name, if it is one, is not yet set. -/
structure Lacks (d : Draft) (name : String) : Prop where
  memoryLimitMb : name = "memory-limit-mb" → d.memoryLimitMb = none
  timeoutSecs : name = "timeout-secs" → d.timeoutSecs = none
  fixture : name = "fixture" → d.fixture = none
  logging : name = "logging" → d.logging = none

variable {d d' : Draft} {v : Json.Value}

theorem Lacks.field {name name' : String} (h : d.field name v = .ok d') (hne : name' ≠ name)
    (hd : d.Lacks name') : d'.Lacks name' := by
  unfold Draft.field at h
  split at h
  · obtain ⟨mb, -, hd'⟩ := bind_eq_ok_iff.mp h
    cases hd'
    exact { hd with memoryLimitMb := fun hname => absurd hname hne }
  · obtain ⟨secs, -, hd'⟩ := bind_eq_ok_iff.mp h
    cases hd'
    exact { hd with timeoutSecs := fun hname => absurd hname hne }
  · obtain ⟨path, -, hd'⟩ := bind_eq_ok_iff.mp h
    cases hd'
    exact { hd with fixture := fun hname => absurd hname hne }
  · obtain ⟨choices, -, hd'⟩ := bind_eq_ok_iff.mp h
    cases hd'
    exact { hd with logging := fun hname => absurd hname hne }
  · cases h

theorem toOption_field (hr : Regular es) (he : e ∈ es) (hv : e.2.InJson v)
    (hd : d.Lacks e.1.name) :
    (d.field e.1.name v).toOption.map finish = (addEntry d.finish e).toOption := by
  have hn := hr.nodes e he
  have hlogging := hr.logging e he
  obtain ⟨⟨name, span⟩, n⟩ := e
  by_cases hknown : name ∈ fieldNames
  · simp only [fieldNames, List.mem_cons, List.not_mem_nil, or_false] at hknown
    rcases hknown with rfl | rfl | rfl | rfl
    · rw [addEntry, Draft.field, hd.memoryLimitMb rfl]
      simp only [Json.once, Toml.toOption_bind, Toml.toOption_map, Toml.toOption_readEntry,
        hv.toOption_unsigned64 hn]
      cases n.unsigned64.toOption <;> rfl
    · rw [addEntry, Draft.field, hd.timeoutSecs rfl]
      simp only [Json.once, Toml.toOption_bind, Toml.toOption_map, Toml.toOption_readEntry,
        hv.toOption_unsigned64 hn]
      cases n.unsigned64.toOption <;> rfl
    · rw [addEntry, Draft.field, hd.fixture rfl]
      simp only [Json.once, readPath, Toml.toOption_bind, Toml.toOption_map,
        Toml.toOption_readEntry, hv.toOption_optional, hv.toOption_text]
      cases (n.text .path).toOption <;> rfl
    · rw [addEntry, Draft.field, hd.logging rfl]
      simp only [Json.once, Toml.toOption_bind, Toml.toOption_map, Toml.toOption_readEntry,
        Log.Choices.toOption_ofValue hv hn (hlogging rfl)]
      cases (Log.Choices.ofNode n).toOption <;> rfl
  · simp only [fieldNames, List.mem_cons, List.not_mem_nil, or_false, not_or] at hknown
    obtain ⟨hmb, hsecs, hpath, hchoices⟩ := hknown
    simp [Draft.field, addEntry, Except.toOption]

end Draft

theorem toOption_ofValue {t : Table} {v : Json.Value} (h : (Node.table t).InJson v)
    (hr : Regular t.entries) : (ofValue v).toOption = (ofTable t).toOption := by
  cases h with
  | @table _ u es ms hu hp h =>
    obtain rfl : t = u := Node.IsTable.unique (.inl rfl) hu
    have hr' : Regular es := hr.perm hp
    calc (ofMembers {} ms).toOption
        = (es.foldlM addEntry (Draft.finish {})).toOption :=
          h.toOption_members ofMembers Draft.Lacks hr'.names_nodup (fun _ => rfl)
            (fun _ _ _ _ => rfl) (fun e he hv hd => Draft.toOption_field hr' he hv hd)
            Draft.Lacks.field
            (fun _ _ => ⟨fun _ => rfl, fun _ => rfl, fun _ => rfl, fun _ => rfl⟩)
      _ = (ofTable t).toOption :=
          Toml.toOption_foldlM_perm WrittenIn .perm (fun _ => foldlM_eq_ok_iff hr')
            (fun _ => foldlM_eq_ok_iff hr) hp.symm

end HeapPressure.Settings
