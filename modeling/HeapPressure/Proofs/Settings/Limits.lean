import HeapPressure.Settings.Toml
import Mathlib.Tactic.ByContra
import Mathlib.Tactic.SplitIfs

/-!
What validation lets pass: a timeout that is not zero, and a memory limit whose bytes fit into
64 bits. For such settings the limit in bytes is absent only when there is none.
-/
namespace HeapPressure.Settings

structure Valid (s : Settings) : Prop where
  timeoutSecs_ne_zero : s.timeoutSecs ≠ 0
  memoryLimitMb_lt : s.memoryLimitMb.toNat < 0x100000000000

variable {s t : Settings}

theorem valid_iff :
    s.Valid ↔ s.memoryLimitMb.toNat < 0x100000000000 ∧ 1 ≤ s.timeoutSecs.toNat := by
  have hzero : s.timeoutSecs = 0 ↔ s.timeoutSecs.toNat = 0 := UInt64.toNat_inj.symm
  constructor
  · rintro ⟨ht, hm⟩
    exact ⟨hm, Nat.one_le_iff_ne_zero.mpr fun h => ht (hzero.mpr h)⟩
  · rintro ⟨hm, ht⟩
    exact ⟨fun h => Nat.one_le_iff_ne_zero.mp ht (hzero.mp h), hm⟩

theorem memoryLimitBytes_of_eq_zero (h : s.memoryLimitMb = 0) : s.memoryLimitBytes = none :=
  if_pos h

theorem memoryLimitBytes_of_lt (h : s.memoryLimitMb ≠ 0)
    (hlt : s.memoryLimitMb.toNat < 0x100000000000) :
    s.memoryLimitBytes = some (s.memoryLimitMb.toNat * bytesPerMb).toUInt64 := by
  have hbytes : s.memoryLimitMb.toNat * bytesPerMb < 0x10000000000000000 := by
    rw [bytesPerMb]
    omega
  rw [memoryLimitBytes, if_neg h]
  exact if_pos hbytes

theorem memoryLimitBytes_of_not_lt (h : ¬s.memoryLimitMb.toNat < 0x100000000000) :
    s.memoryLimitBytes = none := by
  have hbytes : ¬s.memoryLimitMb.toNat * bytesPerMb < 0x10000000000000000 := by
    rw [bytesPerMb]
    omega
  have hne : s.memoryLimitMb ≠ 0 := by
    intro h0
    rw [h0] at h
    exact h (by decide)
  rw [memoryLimitBytes, if_neg hne]
  exact if_neg hbytes

theorem toNat_bytes (h : s.memoryLimitMb.toNat < 0x100000000000) :
    (s.memoryLimitMb.toNat * bytesPerMb).toUInt64.toNat = s.memoryLimitMb.toNat * 0x100000 := by
  rw [Nat.toUInt64_eq, UInt64.toNat_ofNat', bytesPerMb]
  omega

theorem validate_eq_ok_iff : s.validate = .ok () ↔ s.Valid := by
  constructor
  · intro h
    rw [validate] at h
    split_ifs at h with ht hm
    refine ⟨ht, ?_⟩
    by_contra hlt
    have hne : s.memoryLimitMb ≠ 0 := by
      intro h0
      rw [h0] at hlt
      exact hlt (by decide)
    rw [memoryLimitBytes_of_not_lt hlt] at hm
    simp [hne] at hm
  · rintro ⟨ht, hlt⟩
    rw [validate, if_neg ht]
    by_cases h0 : s.memoryLimitMb = 0
    · simp [h0]
    · rw [memoryLimitBytes_of_lt h0 hlt]
      simp

theorem validated_eq_ok_iff : s.validated = .ok t ↔ t = s ∧ s.Valid := by
  rw [← validate_eq_ok_iff, validated]
  cases s.validate <;> simp [Except.map, eq_comm]

theorem validated_eq_error_iff : (∃ i, s.validated = .error i) ↔ ¬s.Valid := by
  rw [← validate_eq_ok_iff, validated]
  cases s.validate <;> simp [Except.map]

theorem ofToml_eq_ok_iff {text : String} : ofToml text = .ok s ↔
    ∃ u, Toml.read text = some u ∧ ofTable u = .ok s ∧ s.Valid := by
  constructor
  · intro h
    unfold ofToml at h
    split at h
    · cases h
    · next u hread =>
      split at h
      · cases h
      · next v hv =>
        cases hval : v.validated with
        | error i =>
          rw [hval] at h
          cases h
        | ok w =>
          rw [hval] at h
          cases h
          obtain ⟨rfl, hvalid⟩ := validated_eq_ok_iff.mp hval
          exact ⟨u, hread, hv, hvalid⟩
  · rintro ⟨u, hread, hu, hvalid⟩
    have hval : s.validated = .ok s := validated_eq_ok_iff.mpr ⟨rfl, hvalid⟩
    rw [ofToml, hread]
    simp only [hu, hval]
    rfl

/-- With valid settings the limit is none only where none is asked for. -/
theorem Valid.memoryLimitBytes_eq_none_iff (h : s.Valid) :
    s.memoryLimitBytes = none ↔ s.memoryLimitMb = 0 := by
  refine ⟨fun hnone => ?_, memoryLimitBytes_of_eq_zero⟩
  by_contra hne
  rw [memoryLimitBytes_of_lt hne h.memoryLimitMb_lt] at hnone
  cases hnone

theorem Valid.memoryLimitBytes_eq_some (h : s.Valid) (hne : s.memoryLimitMb ≠ 0) :
    ∃ b, s.memoryLimitBytes = some b ∧ b.toNat = s.memoryLimitMb.toNat * 0x100000 :=
  ⟨_, memoryLimitBytes_of_lt hne h.memoryLimitMb_lt, toNat_bytes h.memoryLimitMb_lt⟩

end HeapPressure.Settings
