import HeapPressure.Json.Reader
import HeapPressure.Toml.Number
import Mathlib.Data.List.Basic

/-!
Numerals as `Nat.toDigits` writes them: digits only, no zero in front, and they read back. So does
a number's text, with or without a sign.
-/
namespace HeapPressure.Text

section
variable {α : Type} {p : α → Bool} {s rest : List α}

theorem takeWhile_append_stop (hs : ∀ c ∈ s, p c = true) (hr : ∀ c ∈ rest.head?, p c = false) :
    (s ++ rest).takeWhile p = s := by
  rw [List.takeWhile_append_of_pos hs]
  cases rest with
  | nil => simp
  | cons c rest => simp [hr c rfl]

theorem dropWhile_append_stop (hs : ∀ c ∈ s, p c = true) (hr : ∀ c ∈ rest.head?, p c = false) :
    (s ++ rest).dropWhile p = rest := by
  rw [List.dropWhile_append_of_pos hs]
  cases rest with
  | nil => rfl
  | cons c rest => simp [hr c rfl]

end

theorem hexValue?_digitChar {n : Nat} (h : n < 16) : hexValue? n.digitChar = some n := by
  revert n
  decide

theorem hexValue?_of_isDigit {c : Char} (h : c.isDigit = true) :
    hexValue? c = some (c.toNat - 48) := by
  have hc : '0' ≤ c ∧ c ≤ '9' := by
    simp only [Char.isDigit, Bool.and_eq_true, decide_eq_true_eq] at h
    exact h
  rw [hexValue?, if_pos hc]

theorem isDigit_of_mem_toDigits {n : Nat} {c : Char} (h : c ∈ Nat.toDigits 10 n) :
    c.isDigit = true :=
  Nat.isDigit_of_mem_toDigits (by decide) (by decide) h

theorem toDigits_head {n : Nat} (h : (Nat.toDigits 10 n).head? = some '0') : n = 0 := by
  induction n using Nat.strongRecOn with
  | ind n ih =>
    rw [Nat.toDigits_eq_if (by decide)] at h
    split at h
    · simpa using h
    · next hn =>
      have hh : (Nat.toDigits 10 (n / 10)).head? = some '0' := by
        cases hd : Nat.toDigits 10 (n / 10) with
        | nil => exact absurd hd Nat.toDigits_ne_nil
        | cons d ds => simpa [hd] using h
      have := ih (n / 10) (by omega) hh
      omega

/-- A numeral with a zero in front is the zero. -/
theorem toDigits_eq_cons_zero {n : Nat} {ds : List Char} (h : Nat.toDigits 10 n = '0' :: ds) :
    ds = [] := by
  have hn : n = 0 := toDigits_head (by rw [h]; rfl)
  subst hn
  simpa using h.symm

end HeapPressure.Text

namespace HeapPressure.Json

theorem natOfDigits_toDigits (n : Nat) : natOfDigits (Nat.toDigits 10 n) = n := by
  have h : natOfDigits (Nat.toDigits 10 n) = Nat.ofDigitChars 10 (Nat.toDigits 10 n) 0 := by
    simp only [natOfDigits, digitValue, Nat.ofDigitChars_eq_foldl, Nat.mul_comm]
    rfl
  rw [h, Nat.ofDigitChars_ten_toDigits]

end HeapPressure.Json

namespace HeapPressure.Toml

theorem natOf_toDigits (n : Nat) : natOf 10 (Nat.toDigits 10 n) = n := by
  have h : natOf 10 (Nat.toDigits 10 n) = Json.natOfDigits (Nat.toDigits 10 n) := by
    apply List.foldl_ext
    intro m d hd
    rw [digitValue, Text.hexValue?_of_isDigit (Text.isDigit_of_mem_toDigits hd)]
    rfl
  rw [h, Json.natOfDigits_toDigits]

end HeapPressure.Toml

namespace HeapPressure.Text

theorem toList_nat (n : Nat) : (toString n).toList = Nat.toDigits 10 n := Nat.toList_repr

theorem toList_negSucc (n : Nat) :
    (toString (Int.negSucc n)).toList = '-' :: Nat.toDigits 10 (n + 1) := by
  rw [← toList_nat]
  exact String.toList_append

theorem notMem_toDigits {c : Char} (h : c.isDigit = false) (n : Nat) : c ∉ Nat.toDigits 10 n := by
  intro hc
  rw [isDigit_of_mem_toDigits hc] at h
  cases h

theorem toDigits_inj {m n : Nat} (h : Nat.toDigits 10 m = Nat.toDigits 10 n) : m = n := by
  rw [← Json.natOfDigits_toDigits m, h, Json.natOfDigits_toDigits]

theorem nat_inj_of_text {m n : Nat} (h : toString m = toString n) : m = n := by
  have hlists := congrArg String.toList h
  rw [toList_nat, toList_nat] at hlists
  exact toDigits_inj hlists

theorem int_inj_of_text {m n : Int} (h : toString m = toString n) : m = n := by
  have hlists := congrArg String.toList h
  have hsign (k l : Nat) : (toString (Int.ofNat k)).toList ≠ (toString (Int.negSucc l)).toList := by
    intro hkl
    have hk : (toString (Int.ofNat k)).toList = Nat.toDigits 10 k := toList_nat k
    rw [hk, toList_negSucc] at hkl
    exact notMem_toDigits (c := '-') rfl k (hkl ▸ List.mem_cons_self)
  cases m with
  | ofNat k =>
    cases n with
    | ofNat l => exact congrArg Int.ofNat (nat_inj_of_text h)
    | negSucc l => exact absurd hlists (hsign k l)
  | negSucc k =>
    cases n with
    | ofNat l => exact absurd hlists.symm (hsign l k)
    | negSucc l =>
      rw [toList_negSucc, toList_negSucc] at hlists
      rw [Nat.succ.inj (toDigits_inj (List.cons.inj hlists).2)]

end HeapPressure.Text
