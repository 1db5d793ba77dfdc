import HeapPressure.Toml.Decode
import HeapPressure.Proofs.Toml.Sound

/-!
What the decoders of TOML take for an integer, a string, a variant: exactly the values that are
written so, wherever they stand.
-/
namespace HeapPressure.Toml

/-- Where the fault lies is no matter of success. -/
theorem toOption_readEntry {α : Type} (read : Node → Except Fault α) (key : Key) (n : Node) :
    (readEntry read key n).toOption = (read n).toOption := by
  rw [readEntry]
  cases read n <;> rfl

theorem readEntry_eq_ok_iff {α : Type} {read : Node → Except Fault α} {key : Key} {n : Node}
    {a : α} : readEntry read key n = .ok a ↔ read n = .ok a := by
  rw [readEntry]
  cases read n <;> simp

namespace Node

def Is (n : Node) (v : Scalar) : Prop := ∃ span, n = .leaf v span

/-- A table under a header, by dotted keys or in braces. -/
def IsTable (n : Node) (t : Table) : Prop := n = .table t ∨ n = .inlined t

/-- A string that is the name of what is there. -/
def Spells {α : Type} (n : Node) (name : α → String) (o : Option α) : Prop :=
  ∃ a, o = some a ∧ n.Is (.string (name a))

variable {n : Node}

theorem Is.unique {v w : Scalar} (hv : n.Is v) (hw : n.Is w) : v = w := by
  obtain ⟨span, rfl⟩ := hv
  obtain ⟨span', h⟩ := hw
  cases h
  rfl

theorem Is.fits {v : Scalar} (h : n.Is v) (hs : n.Sound) : v.Fits := by
  obtain ⟨span, rfl⟩ := h
  cases hs with
  | leaf _ hv => exact hv

theorem IsTable.unique {t u : Table} (ht : n.IsTable t) (hu : n.IsTable u) : t = u := by
  rcases ht with rfl | rfl <;> rcases hu with h | h <;> cases h <;> rfl

theorem IsTable.sound {t : Table} (h : n.IsTable t) (hs : n.Sound) : t.Sound := by
  rcases h with rfl | rfl
  · cases hs with
    | table ht => exact ht
  · cases hs with
    | inlined ht => exact ht

/-- An integer of 64 bits that is not negative does not wrap. -/
theorem unsigned64_eq_ok_iff (hs : n.Sound) {k : UInt64} :
    n.unsigned64 = .ok k ↔ n.Is (.integer k.toNat) := by
  constructor
  · intro h
    unfold unsigned64 at h
    split at h
    · next m span =>
      cases h
      have hm : m < 0x8000000000000000 := by
        have hfits : (Scalar.integer (.ofNat m)).Fits := Is.fits ⟨span, rfl⟩ hs
        simp only [Scalar.Fits, Int.ofNat_eq_natCast] at hfits
        omega
      refine ⟨span, ?_⟩
      rw [Nat.toUInt64_eq, UInt64.toNat_ofNat', Nat.mod_eq_of_lt (by omega)]
      rfl
    · cases h
    · cases h
  · rintro ⟨span, rfl⟩
    simp [unsigned64]

theorem text_eq_ok_iff {expected : Document.Expected} {s : String} :
    n.text expected = .ok s ↔ n.Is (.string s) := by
  constructor
  · intro h
    unfold text at h
    split at h
    · next span =>
      cases h
      exact ⟨span, rfl⟩
    · cases h
  · rintro ⟨span, rfl⟩
    rfl

/-- Of scalars only a string can be a variant. -/
theorem variant_eq_ok_iff {α : Type} {ofName? : String → Option α} {known : List String} {a : α}
    {v : Scalar} (hv : n.Is v) : n.variant ofName? known = .ok a ↔
      ∃ name, n.Is (.string name) ∧ ofName? name = some a := by
  obtain ⟨span, rfl⟩ := hv
  constructor
  · intro h
    unfold variant at h
    split at h
    · next name span he =>
      cases he
      refine ⟨name, ⟨_, rfl⟩, ?_⟩
      rw [named] at h
      split at h
      · next b hb =>
        cases h
        exact hb
      · cases h
    all_goals simp_all
  · rintro ⟨name, ⟨span', h⟩, ha⟩
    cases h
    simp [variant, named, ha]

end Node

end HeapPressure.Toml
