import HeapPressure.Json.Decode
import HeapPressure.Proofs.Json.Documents
import HeapPressure.Proofs.Results

/-!
What the decoders accept, and what they make of the value of a document: the integer, the string
or the variant that was written, and nothing where null was.
-/
namespace HeapPressure.Json

theorem Number.integer?_ofInt {n : Int} (hl : -0x8000000000000000 ≤ n)
    (hh : n < 0x10000000000000000) : (Number.ofInt n).integer? = some n := by
  cases n with
  | ofNat k =>
    have hk : k < 0x10000000000000000 := by simp only [Int.ofNat_eq_natCast] at hh; omega
    simp [Number.ofInt, Number.integer?, hk]
  | negSucc k =>
    have hk : k + 1 ≤ 0x8000000000000000 := by omega
    simp only [Number.ofInt, Number.integer?]
    simp [hk, Int.negSucc_eq]

theorem Number.eq_ofInt_of_integer? {n : Number} {i : Int} (h : n.integer? = some i) :
    n = .ofInt i := by
  obtain ⟨negative, whole, fraction, exponent⟩ := n
  simp only [Number.integer?, Option.ite_none_right_eq_some, Bool.and_eq_true, List.isEmpty_iff,
    Option.isNone_iff_eq_none] at h
  obtain ⟨⟨rfl, rfl⟩, h⟩ := h
  split at h
  · next hnegative =>
    simp only [Option.ite_none_right_eq_some] at h
    obtain ⟨⟨hpos, -⟩, h⟩ := h
    obtain ⟨k, rfl⟩ := Nat.exists_eq_add_one_of_ne_zero (by omega : whole ≠ 0)
    cases h
    rw [hnegative]
    rfl
  · next hnegative =>
    simp only [Option.ite_none_right_eq_some] at h
    obtain ⟨-, h⟩ := h
    cases h
    rw [Bool.eq_false_iff.mpr hnegative]
    rfl

namespace Value

variable {v : Value} {α : Type} {a : α}

theorem refuse_ne_ok {expected : Document.Expected} : v.refuse expected ≠ .ok a := by
  rw [refuse]
  split <;> simp

theorem integerWithin_eq_ok_iff {low high n : Int} {expected : Document.Expected}
    (hl : -0x8000000000000000 ≤ low) (hh : high < 0x10000000000000000) :
    v.integerWithin low high expected = .ok n ↔
      v = .number (.ofInt n) ∧ low ≤ n ∧ n ≤ high := by
  constructor
  · intro h
    unfold integerWithin at h
    split at h
    · next m =>
      split at h
      · next i hi =>
        split at h
        · next hbounds =>
          cases h
          rw [Number.eq_ofInt_of_integer? hi]
          exact ⟨rfl, hbounds⟩
        · cases h
      · exact absurd h refuse_ne_ok
    · exact absurd h refuse_ne_ok
  · rintro ⟨rfl, hbounds⟩
    have hn : (Number.ofInt n).integer? = some n := Number.integer?_ofInt (by omega) (by omega)
    rw [integerWithin]
    simp only [hn]
    rw [if_pos hbounds]

theorem unsigned64_eq_ok_iff {n : UInt64} :
    v.unsigned64 = .ok n ↔ v = .number (.ofInt n.toNat) := by
  rw [unsigned64, map_eq_ok_iff]
  constructor
  · rintro ⟨i, hi, hn⟩
    obtain ⟨rfl, hl, hh⟩ := (integerWithin_eq_ok_iff (by decide) (by decide)).mp hi
    have hi : (n.toNat : Int) = i := by
      rw [← hn, Nat.toUInt64_eq, UInt64.toNat_ofNat_of_lt' (by simp only [UInt64.size]; omega)]
      omega
    rw [hi]
  · rintro rfl
    have h := n.toNat_lt
    refine ⟨n.toNat, (integerWithin_eq_ok_iff (by decide) (by decide)).mpr ⟨rfl, ?_⟩, by simp⟩
    omega

theorem signed32_eq_ok_iff {n : Int32} : v.signed32 = .ok n ↔ v = .number (.ofInt n.toInt) := by
  rw [signed32, map_eq_ok_iff]
  constructor
  · rintro ⟨i, hi, rfl⟩
    obtain ⟨rfl, hl, hh⟩ := (integerWithin_eq_ok_iff (by decide) (by decide)).mp hi
    rw [Int32.toInt_ofInt_of_le hl (by omega)]
  · rintro rfl
    have hl := n.le_toInt
    have hh := n.toInt_lt
    refine ⟨n.toInt, (integerWithin_eq_ok_iff (by decide) (by decide)).mpr ⟨rfl, ?_⟩, by simp⟩
    omega

theorem text_eq_ok_iff {expected : Document.Expected} {s : String} :
    v.text expected = .ok s ↔ v = .string (some s) := by
  constructor
  · intro h
    unfold text at h
    split at h
    · cases h
      rfl
    · exact absurd h refuse_ne_ok
  · rintro rfl
    rfl

theorem variant_eq_ok_iff {ofName? : String → Option α} {known : List String} :
    v.variant ofName? known = .ok a ↔ ∃ name, ofName? name = some a ∧
      (v = .string (some name) ∨ v = .object (.cons (some name) .null .close)) := by
  have hnamed {name : String} : named ofName? known name = .ok a ↔ ofName? name = some a := by
    rw [named]
    split <;> simp_all
  constructor
  · intro h
    unfold variant at h
    split at h
    · exact ⟨_, hnamed.mp h, .inl rfl⟩
    · next key v rest =>
      split at h
      · cases h
      · next name =>
        obtain ⟨b, hb, h⟩ := bind_eq_ok_iff.mp h
        split at h
        · split at h
          · cases h
            exact ⟨name, hnamed.mp hb, .inr rfl⟩
          · cases h
        · exact absurd h refuse_ne_ok
    · cases h
  · rintro ⟨name, hname, rfl | rfl⟩
    · exact hnamed.mpr hname
    · rw [variant, hnamed.mpr hname]
      rfl

/-- What is never read from null can be left out. -/
theorem optional_eq_ok_iff {read : Value → Except Error α} {o : Option α}
    (hnull : ∀ a, read .null ≠ .ok a) :
    v.optional read = .ok o ↔ v = .null ∧ o = none ∨ ∃ a, read v = .ok a ∧ o = some a := by
  unfold optional
  split
  · simp [hnull, eq_comm (b := o)]
  · next hv =>
    rw [map_eq_ok_iff]
    simp [show v ≠ .null from hv, eq_comm]

@[simp] theorem unsigned64_value (n : UInt64) :
    (Document.integer n.toNat).value.unsigned64 = .ok n := unsigned64_eq_ok_iff.mpr rfl

@[simp] theorem signed32_value (n : Int32) :
    (Document.integer n.toInt).value.signed32 = .ok n := signed32_eq_ok_iff.mpr rfl

@[simp] theorem text_value (expected : Document.Expected) (s : String) :
    (Document.string s).value.text expected = .ok s := rfl

theorem variant_value {ofName? : String → Option α} {known : List String} {s : String}
    (h : ofName? s = some a) : (Document.string s).value.variant ofName? known = .ok a :=
  variant_eq_ok_iff.mpr ⟨s, h, .inl rfl⟩

/-- What is never written as null can be left out. -/
theorem optional_value {read : Value → Except Error α} {f : α → Document}
    (hf : ∀ a, (f a).value ≠ .null) (h : ∀ a, read (f a).value = .ok a) (o : Option α) :
    (Document.ofOption f o).value.optional read = .ok o := by
  cases o with
  | none => rfl
  | some a =>
    rw [Document.ofOption, optional]
    · rw [h a]
      rfl
    · exact hf a

theorem optional_unsigned64 (o : Option UInt64) :
    (Document.ofOption (fun n => .integer n.toNat) o).value.optional unsigned64 = .ok o :=
  optional_value (fun _ => by simp [Document.value]) unsigned64_value o

theorem optional_signed32 (o : Option Int32) :
    (Document.ofOption (fun n => .integer n.toInt) o).value.optional signed32 = .ok o :=
  optional_value (fun _ => by simp [Document.value]) signed32_value o

theorem optional_text (expected : Document.Expected) (o : Option String) :
    (Document.ofOption .string o).value.optional (text expected) = .ok o :=
  optional_value (fun _ => by simp [Document.value]) (text_value expected) o

end Value

end HeapPressure.Json
