import HeapPressure.Report.Usage

/-!
Resource use in exact numbers. However the steps on the way are clamped, the outcome is the exact
amount, clamped once.
-/
namespace HeapPressure

theorem toNat_saturate (n : Nat) : (saturate n).toNat = min n maxCount := by
  have hlt : min n maxCount < 18446744073709551616 :=
    Nat.lt_of_le_of_lt (Nat.min_le_right n maxCount) (by decide)
  rw [saturate, Nat.toUInt64, UInt64.toNat_ofNat', Nat.mod_eq_of_lt hlt]

theorem toNat_saturatingAdd (a b : UInt64) :
    (saturatingAdd a b).toNat = min (a.toNat + b.toNat) maxCount := toNat_saturate _

theorem toNat_saturatingMul (a b : UInt64) :
    (saturatingMul a b).toNat = min (a.toNat * b.toNat) maxCount := toNat_saturate _

/-- Parts that were clamped are at the upper end already. -/
theorem clamp_add_clamp (a b n : Nat) : min (min a n + min b n) n = min (a + b) n := by omega

theorem saturatingAdd_comm (a b : UInt64) : saturatingAdd a b = saturatingAdd b a :=
  congrArg saturate (Nat.add_comm a.toNat b.toNat)

theorem toNat_positivePart (n : Int64) : (positivePart n).toNat = n.toInt.toNat := by
  have hn : n.toInt < 9223372036854775808 := n.toInt_lt
  have hlt : n.toInt.toNat < 18446744073709551616 := by omega
  rw [positivePart, Nat.toUInt64, UInt64.toNat_ofNat', Nat.mod_eq_of_lt hlt]

theorem toNat_microsOf (seconds micros : Int64) : (microsOf seconds micros).toNat =
    min (seconds.toInt.toNat * 1000000 + micros.toInt.toNat) maxCount := by
  have hfactor : (1000000 : UInt64).toNat = 1000000 := rfl
  rw [microsOf, toNat_saturatingAdd, toNat_saturatingMul, toNat_positivePart, toNat_positivePart,
    hfactor]
  omega

namespace ResourceCounts

/-- Bytes of memory, where a number below zero counts as nothing. -/
def exactBytes (r : ResourceCounts) : Int := max r.maxResidentKiB.toInt 0 * 1024

/-- Microseconds in the program and in the system. -/
def exactMicros (r : ResourceCounts) : Int :=
  (max r.userSeconds.toInt 0 + max r.systemSeconds.toInt 0) * 1000000 +
    max r.userMicros.toInt 0 + max r.systemMicros.toInt 0

/-- No count is larger than its counterpart. -/
structure AtMost (r r' : ResourceCounts) : Prop where
  maxResidentKiB : r.maxResidentKiB ≤ r'.maxResidentKiB
  userSeconds : r.userSeconds ≤ r'.userSeconds
  userMicros : r.userMicros ≤ r'.userMicros
  systemSeconds : r.systemSeconds ≤ r'.systemSeconds
  systemMicros : r.systemMicros ≤ r'.systemMicros

/-- The times of the program and of the system, exchanged. -/
def exchanged (r : ResourceCounts) : ResourceCounts :=
  { r with
    userSeconds := r.systemSeconds, userMicros := r.systemMicros
    systemSeconds := r.userSeconds, systemMicros := r.userMicros }

theorem AtMost.exactBytes_le {r r' : ResourceCounts} (h : r.AtMost r') :
    r.exactBytes ≤ r'.exactBytes := by
  have hresident := Int64.le_iff_toInt_le.mp h.maxResidentKiB
  simp only [exactBytes]
  omega

theorem AtMost.exactMicros_le {r r' : ResourceCounts} (h : r.AtMost r') :
    r.exactMicros ≤ r'.exactMicros := by
  have huser := Int64.le_iff_toInt_le.mp h.userSeconds
  have huserMicros := Int64.le_iff_toInt_le.mp h.userMicros
  have hsystem := Int64.le_iff_toInt_le.mp h.systemSeconds
  have hsystemMicros := Int64.le_iff_toInt_le.mp h.systemMicros
  simp only [exactMicros]
  omega

end ResourceCounts

namespace Usage

open ResourceCounts

theorem clamped_of_eq {count : UInt64} {n : Nat} {exact : Int}
    (hcount : count.toNat = min n maxCount) (hexact : exact = n) :
    (count.toNat : Int) = min 18446744073709551615 exact := by
  rw [hcount, hexact, maxCount]
  omega

theorem peakMemoryBytes_ofCounts (r : ResourceCounts) :
    ((ofCounts r).peakMemoryBytes.toNat : Int) = min 18446744073709551615 r.exactBytes := by
  have hfactor : (1024 : UInt64).toNat = 1024 := rfl
  refine clamped_of_eq (n := r.maxResidentKiB.toInt.toNat * 1024) ?_ ?_
  · rw [ofCounts, toNat_saturatingMul, toNat_positivePart, hfactor]
  · rw [exactBytes]
    omega

theorem cpuTimeMicros_ofCounts (r : ResourceCounts) :
    ((ofCounts r).cpuTimeMicros.toNat : Int) = min 18446744073709551615 r.exactMicros := by
  have hclamped : (ofCounts r).cpuTimeMicros.toNat =
      min (r.userSeconds.toInt.toNat * 1000000 + r.userMicros.toInt.toNat +
        (r.systemSeconds.toInt.toNat * 1000000 + r.systemMicros.toInt.toNat)) maxCount := by
    rw [ofCounts, toNat_saturatingAdd, toNat_microsOf, toNat_microsOf, clamp_add_clamp]
  refine clamped_of_eq hclamped ?_
  rw [exactMicros]
  omega

theorem ofCounts_exchanged (r : ResourceCounts) : ofCounts r.exchanged = ofCounts r :=
  congrArg (Usage.mk _) (saturatingAdd_comm _ _)

theorem ofCounts_le {r r' : ResourceCounts} (h : r.AtMost r') :
    (ofCounts r).peakMemoryBytes ≤ (ofCounts r').peakMemoryBytes ∧
      (ofCounts r).cpuTimeMicros ≤ (ofCounts r').cpuTimeMicros := by
  have hbytes := h.exactBytes_le
  have hmicros := h.exactMicros_le
  have hpeak := peakMemoryBytes_ofCounts r
  have hpeak' := peakMemoryBytes_ofCounts r'
  have hcpu := cpuTimeMicros_ofCounts r
  have hcpu' := cpuTimeMicros_ofCounts r'
  rw [UInt64.le_iff_toNat_le, UInt64.le_iff_toNat_le]
  omega

/-- Memory and time are the exact amounts, clamped once at the upper end, so an amount that fits is
never lost. Larger counts never give less, and it does not matter whether time was spent in the
program or in the system. No step on the way wraps: each conversion, product and sum is the exact
one or the upper end. -/
theorem ofCounts_clamped_once (r : ResourceCounts) :
    let u := ofCounts r
    ((u.peakMemoryBytes.toNat : Int) = min 18446744073709551615 r.exactBytes ∧
      (u.cpuTimeMicros.toNat : Int) = min 18446744073709551615 r.exactMicros) ∧
    (r.exactBytes ≤ 18446744073709551615 → u.peakMemoryBytes.toNat = r.exactBytes) ∧
    (r.exactMicros ≤ 18446744073709551615 → u.cpuTimeMicros.toNat = r.exactMicros) ∧
    (∀ r', r.AtMost r' → u.peakMemoryBytes ≤ (ofCounts r').peakMemoryBytes ∧
      u.cpuTimeMicros ≤ (ofCounts r').cpuTimeMicros) ∧
    ofCounts r.exchanged = u ∧
    (∀ n : Int64, ((positivePart n).toNat : Int) = max n.toInt 0) ∧
    ∀ a b, (saturatingMul a b).toNat = min (a.toNat * b.toNat) 18446744073709551615 ∧
      (saturatingAdd a b).toNat = min (a.toNat + b.toNat) 18446744073709551615 := by
  intro u
  have hpeak : (u.peakMemoryBytes.toNat : Int) = min 18446744073709551615 r.exactBytes :=
    peakMemoryBytes_ofCounts r
  have hcpu : (u.cpuTimeMicros.toNat : Int) = min 18446744073709551615 r.exactMicros :=
    cpuTimeMicros_ofCounts r
  refine ⟨⟨hpeak, hcpu⟩, ?_, ?_, ?_, ofCounts_exchanged r, ?_, ?_⟩
  · intro hfits
    rw [hpeak, Int.min_eq_right hfits]
  · intro hfits
    rw [hcpu, Int.min_eq_right hfits]
  · intro r' hr
    exact ofCounts_le hr
  · intro n
    rw [toNat_positivePart, Int.toNat_eq_max]
  · intro a b
    exact ⟨toNat_saturatingMul a b, toNat_saturatingAdd a b⟩

/-- At the edge: a time that just fits, and memory and a time that are too large by one. -/
theorem ofCounts_clamped_once_edge :
    let r : ResourceCounts := {
      maxResidentKiB := 18014398509481983, userSeconds := 18446744073709, userMicros := 551614,
      systemSeconds := -5, systemMicros := 1 }
    let r' : ResourceCounts := { r with maxResidentKiB := 18014398509481984, systemMicros := 2 }
    r.exactMicros ≤ 18446744073709551615 ∧ r.AtMost r' ∧
      ((ofCounts r).cpuTimeMicros.toNat : Int) = r.exactMicros ∧
      r.exactMicros = 18446744073709551615 ∧ r'.exactMicros = 18446744073709551616 ∧
      (ofCounts r).cpuTimeMicros ≤ (ofCounts r').cpuTimeMicros ∧
      ((ofCounts r').peakMemoryBytes.toNat : Int) = 18446744073709551615 := by
  intro r r'
  have hfits : r.exactMicros ≤ 18446744073709551615 := by decide +kernel
  have hr : r.AtMost r' := ⟨by decide, by decide, by decide, by decide, by decide⟩
  obtain ⟨-, -, hexact, hmono, -⟩ := ofCounts_clamped_once r
  obtain ⟨⟨hpeak, -⟩, -⟩ := ofCounts_clamped_once r'
  have hbytes : r'.exactBytes = 18446744073709551616 := by decide +kernel
  rw [hbytes] at hpeak
  exact ⟨hfits, hr, hexact hfits, by decide +kernel, by decide +kernel, (hmono r' hr).2, hpeak⟩

end Usage
end HeapPressure
