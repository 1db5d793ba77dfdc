import HeapPressure.Proofs.Settings.Limits
import HeapPressure.Proofs.Toml.Records
import HeapPressure.Harness.Host

/-!
Overrides laid over settings one after another. An override that would make the settings invalid
is refused and leaves them as they were; so whatever is in force is valid, holds in each field
what was accepted last, and asks for no limit only where none is asked for.
-/
namespace HeapPressure.Settings

/-- Where settings come from: the defaults, or a file. -/
inductive Loaded : Settings → Prop where
  | defaults : Loaded {}
  | file {text : String} {s : Settings} (h : ofToml text = .ok s) : Loaded s

/-- What is in force after the overrides: those that are refused change nothing. -/
def inForce : List Overrides → Settings → Settings
  | [], s => s
  | o :: os, s =>
    match s.apply o with
    | .ok t => inForce os t
    | .error _ => inForce os s

/-- The overrides that were not refused. -/
def accepted : List Overrides → Settings → List Overrides
  | [], _ => []
  | o :: os, s =>
    match s.apply o with
    | .ok t => o :: accepted os t
    | .error _ => accepted os s

/-- The value given last. -/
def lastGiven {α : Type} (field : Overrides → Option α) (os : List Overrides) : Option α :=
  os.reverse.findSome? field

/-- Two overrides as one: in each field the later one wins if it gives a value. -/
def Overrides.followedBy (a b : Overrides) : Overrides where
  memoryLimitMb := b.memoryLimitMb.or a.memoryLimitMb
  timeoutSecs := b.timeoutSecs.or a.timeoutSecs
  fixture := b.fixture.or a.fixture

def merged : List Overrides → Overrides
  | [] => {}
  | o :: os => o.followedBy (merged os)

variable {s t : Settings}

theorem apply_eq_ok_iff {o : Overrides} : s.apply o = .ok t ↔ t = s.override o ∧ t.Valid := by
  rw [apply, validated_eq_ok_iff]
  constructor
  · rintro ⟨rfl, h⟩
    exact ⟨rfl, h⟩
  · rintro ⟨rfl, h⟩
    exact ⟨rfl, h⟩

theorem apply_eq_error_iff (o : Overrides) (s : Settings) : (∃ i, s.apply o = .error i) ↔
    o.timeoutSecs.getD s.timeoutSecs = 0 ∨
      0x100000000000 ≤ (o.memoryLimitMb.getD s.memoryLimitMb).toNat := by
  rw [apply, validated_eq_error_iff]
  constructor
  · intro h
    by_contra hn
    rw [not_or, Nat.not_le] at hn
    exact h ⟨hn.1, hn.2⟩
  · rintro (h | h) ⟨ht, hm⟩
    · exact ht h
    · exact Nat.not_lt_of_le h hm

theorem Loaded.valid (h : Loaded s) : s.Valid := by
  cases h with
  | defaults => exact ⟨by decide, by decide⟩
  | file h =>
    obtain ⟨-, -, -, hvalid⟩ := ofToml_eq_ok_iff.mp h
    exact hvalid

theorem inForce_valid (os : List Overrides) (h : s.Valid) : (inForce os s).Valid := by
  induction os generalizing s with
  | nil => exact h
  | cons o os ih =>
    rw [inForce]
    cases ho : s.apply o with
    | ok t => exact ih (apply_eq_ok_iff.mp ho).2
    | error i => exact ih h

theorem override_followedBy (a b : Overrides) (s : Settings) :
    s.override (a.followedBy b) = (s.override a).override b := by
  obtain ⟨bm, bt, bf⟩ := b
  cases bm <;> cases bt <;> cases bf <;> rfl

theorem inForce_eq_override (os : List Overrides) (s : Settings) :
    inForce os s = s.override (merged (accepted os s)) := by
  induction os generalizing s with
  | nil => rfl
  | cons o os ih =>
    rw [inForce, accepted]
    cases ho : s.apply o with
    | ok t =>
      obtain ⟨rfl, -⟩ := apply_eq_ok_iff.mp ho
      exact (ih _).trans (override_followedBy o _ s).symm
    | error i => exact ih s

/-- Where no override is refused, all are accepted, and what comes out is in force. -/
theorem accepted_of_foldlM {os : List Overrides}
    (h : os.foldlM (fun s o => s.apply o) s = .ok t) :
    accepted os s = os ∧ inForce os s = t := by
  induction os generalizing s with
  | nil => exact ⟨rfl, Except.ok.inj h⟩
  | cons o os ih =>
    rw [List.foldlM_cons] at h
    rw [accepted, inForce]
    cases ho : s.apply o with
    | ok u =>
      rw [ho] at h
      obtain ⟨ha, hf⟩ := ih h
      exact ⟨congrArg (o :: ·) ha, hf⟩
    | error i =>
      rw [ho] at h
      cases h

theorem lastGiven_cons {α : Type} (field : Overrides → Option α) (o : Overrides)
    (os : List Overrides) : lastGiven field (o :: os) = (lastGiven field os).or (field o) := by
  rw [lastGiven, List.reverse_cons, List.findSome?_append, lastGiven, List.findSome?_singleton]

theorem merged_field {α : Type} {field : Overrides → Option α} (hnone : field {} = none)
    (hor : ∀ a b : Overrides, field (a.followedBy b) = (field b).or (field a))
    (os : List Overrides) : field (merged os) = lastGiven field os := by
  induction os with
  | nil => exact hnone
  | cons o os ih => rw [merged, hor, ih, lastGiven_cons]

/-- After any overrides on loaded settings: what is in force is valid, and an override is refused
exactly when it would make the timeout zero or the limit 2^44 mebibytes or more. Each field holds
what was accepted last for it, the log choices stay. The accepted overrides are worth the same as
one, and so are overrides of which none is refused. The limit in bytes is absent only where none
is asked for, exact otherwise, and a launch takes it over as it takes over the timeout. -/
theorem overrides_in_force (s : Settings) (hs : Loaded s) (os : List Overrides) :
    let t := inForce os s
    let given := accepted os s
    (t.validate = .ok () ∧ 1 ≤ t.timeoutSecs.toNat ∧ t.memoryLimitMb.toNat < 0x100000000000) ∧
    (∀ o, (∃ i, t.apply o = .error i) ↔
      o.timeoutSecs.getD t.timeoutSecs = 0 ∨
        0x100000000000 ≤ (o.memoryLimitMb.getD t.memoryLimitMb).toNat) ∧
    (t.memoryLimitMb = (lastGiven Overrides.memoryLimitMb given).getD s.memoryLimitMb ∧
      t.timeoutSecs = (lastGiven Overrides.timeoutSecs given).getD s.timeoutSecs ∧
      t.fixture = (lastGiven Overrides.fixture given).or s.fixture ∧
      t.logging = s.logging) ∧
    s.apply (merged given) = .ok t ∧
    (∀ u, os.foldlM (fun s o => s.apply o) s = .ok u → s.apply (merged os) = .ok u ∧ u = t) ∧
    (t.memoryLimitBytes = none ↔ t.memoryLimitMb = 0) ∧
    (t.memoryLimitMb ≠ 0 → ∃ b, t.memoryLimitBytes = some b ∧
      b.toNat = t.memoryLimitMb.toNat * 0x100000) ∧
    (∀ (host : Harness.Host) (path : String),
      (t.fixture.map .ok).getD host.besideProgram = .ok path →
      host.pathExists path = true → Harness.Launch.ofSettings host t =
        .ok { program := path
              memoryLimitBytes := t.memoryLimitBytes
              timeoutMillis := t.timeoutSecs.toNat * 1000 }) := by
  intro t given
  have hvalid : t.Valid := inForce_valid os hs.valid
  have hmerged : t = s.override (merged given) := inForce_eq_override os s
  have happly : s.apply (merged given) = .ok t := apply_eq_ok_iff.mpr ⟨hmerged, hvalid⟩
  obtain ⟨hlimit, htimeout⟩ := valid_iff.mp hvalid
  refine ⟨⟨validate_eq_ok_iff.mpr hvalid, htimeout, hlimit⟩,
    fun o => apply_eq_error_iff o t, ⟨?_, ?_, ?_, ?_⟩, happly, fun u hu => ?_,
    hvalid.memoryLimitBytes_eq_none_iff, hvalid.memoryLimitBytes_eq_some, ?_⟩
  · rw [hmerged, ← merged_field (by rfl) (fun _ _ => rfl)]
    rfl
  · rw [hmerged, ← merged_field (by rfl) (fun _ _ => rfl)]
    rfl
  · rw [hmerged, ← merged_field (by rfl) (fun _ _ => rfl)]
    rfl
  · rw [hmerged]
    rfl
  · obtain ⟨hall, hin⟩ := accepted_of_foldlM hu
    have hgiven : given = os := hall
    exact ⟨hgiven ▸ hin ▸ happly, hin.symm⟩
  · intro host path hnamed hthere
    rw [Harness.Launch.ofSettings, Harness.fixturePath_eq_ok_iff.mpr ⟨hnamed, hthere⟩]
    rfl

/-- A limit whose bytes need more than 64 bits is refused, and so is a timeout of zero together
with the fixture beside it. -/
theorem overrides_in_force_refused :
    let s : Settings := { memoryLimitMb := 512 }
    let os : List Overrides := [{ memoryLimitMb := some 64 },
      { memoryLimitMb := some 0xFFFFFFFFFFFFFFFF }, { timeoutSecs := some 0, fixture := some "a" },
      { timeoutSecs := some 3 }]
    Loaded s ∧ inForce os s = { memoryLimitMb := 64, timeoutSecs := 3 } ∧
      s.apply { memoryLimitMb := some 64, timeoutSecs := some 3 } = .ok (inForce os s) ∧
      (inForce os s).validate = .ok () := by
  intro s os
  have hfile : ofToml "memory-limit-mb = 512\n" = .ok s :=
    Toml.toOption_eq_some_iff.mp (by decide +kernel)
  have hmerged : merged (accepted os s) = { memoryLimitMb := some 64, timeoutSecs := some 3 } := by
    decide +kernel
  obtain ⟨⟨hvalid, -⟩, -, -, happly, -⟩ := overrides_in_force s (.file hfile) os
  rw [hmerged] at happly
  exact ⟨.file hfile, by decide +kernel, happly, hvalid⟩

end HeapPressure.Settings
