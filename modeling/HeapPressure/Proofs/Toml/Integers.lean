import HeapPressure.Proofs.Text.Numerals

/-!
Integers of TOML at the end of a line: digits in front of a line end begin no date and no time,
carry no fraction and no exponent, and are read for the number they write.
-/
namespace HeapPressure.Toml

open HeapPressure.Text (isDigit_of_mem_toDigits toDigits_head)

theorem ne_of_isDigit {d c : Char} (hd : isDigit d = true) (hc : isDigit c = false) : d ≠ c := by
  rintro rfl
  rw [hd] at hc
  cases hc

/-- Nothing but digits. -/
def Digits (ds : List Char) : Prop := ∀ c ∈ ds, isDigit c = true

theorem digits_toDigits (n : Nat) : Digits (Nat.toDigits 10 n) :=
  fun _ hc => isDigit_of_mem_toDigits hc

/-- Behind some of the digits stands the next one, or the line end. -/
theorem Digits.next {ds as rest rest' : List Char} {e : Char} (hds : Digits ds)
    (has : Digits as) (h : ds ++ '\n' :: rest = as ++ e :: rest') :
    isDigit e = true ∨ e = '\n' := by
  induction ds generalizing as with
  | nil =>
    cases as with
    | nil => exact .inr (List.cons.inj h).1.symm
    | cons a as =>
      have ha : isDigit '\n' = true := (List.cons.inj h).1 ▸ has a List.mem_cons_self
      exact absurd ha (by decide)
  | cons d ds ih =>
    cases as with
    | nil => exact .inl ((List.cons.inj h).1 ▸ hds d List.mem_cons_self)
    | cons a as =>
      have hds' : Digits ds := (List.forall_mem_cons.mp hds).2
      have has' : Digits as := (List.forall_mem_cons.mp has).2
      exact ih hds' has' (List.cons.inj h).2

theorem Digits.hour?_eq_none {ds : List Char} (hds : Digits ds) (rest : List Char) :
    hour? (ds ++ '\n' :: rest) = none := by
  rcases hcs : ds ++ '\n' :: rest with _ | ⟨a, _ | ⟨b, cs⟩⟩
  · rfl
  · rfl
  · rw [hour?, twoDigits]
    by_cases hab : (isDigit a && isDigit b) = true
    · have has : Digits [a, b] := by simpa [Digits] using hab
      have hexpect : expect ':' cs = none := by
        cases cs with
        | nil => rfl
        | cons d cs =>
          have hd : ':' ≠ d := by
            rintro rfl
            have hnext := hds.next has hcs
            revert hnext
            decide
          simp [expect, hd]
      rw [if_pos hab]
      dsimp only
      split_ifs
      · exact hexpect
      · rfl
    · rw [if_neg hab]
      rfl

theorem Digits.moment {ds : List Char} (hds : Digits ds) (rest : List Char) :
    moment (ds ++ '\n' :: rest) = .other := by
  unfold Toml.moment
  split
  · next a b c d rest' h =>
    have hall : ¬[a, b, c, d].all isDigit = true := by
      intro hd
      have has : Digits [a, b, c, d] := List.all_eq_true.mp hd
      have hnext := hds.next has h
      revert hnext
      decide
    rw [if_neg hall]
  · rw [hds.hour?_eq_none]

theorem moreDigits_digits {ds : List Char} (hds : Digits ds) (rest : List Char) :
    moreDigits isDigit (ds ++ '\n' :: rest) = some (ds, '\n' :: rest) := by
  induction ds with
  | nil => rfl
  | cons d ds ih =>
    obtain ⟨hd, hds⟩ := List.forall_mem_cons.mp hds
    have hu : d ≠ '_' := ne_of_isDigit hd (by decide)
    rw [List.cons_append, moreDigits]
    · rw [if_pos hd, ih hds]
      rfl
    · simp [hu]

theorem toDigits_cases (n : Nat) : Nat.toDigits 10 n = ['0'] ∨
    ∃ d ds, Nat.toDigits 10 n = d :: ds ∧ d ≠ '0' ∧ isDigit d = true ∧ Digits ds := by
  cases hn : Nat.toDigits 10 n with
  | nil => exact absurd hn Nat.toDigits_ne_nil
  | cons d ds =>
    obtain ⟨hd, hds⟩ := List.forall_mem_cons.mp (hn ▸ digits_toDigits n)
    by_cases h0 : d = '0'
    · subst h0
      rw [Text.toDigits_eq_cons_zero hn]
      exact .inl rfl
    · exact .inr ⟨d, ds, rfl, h0, hd, hds⟩

theorem decimalDigits_toDigits (n : Nat) (rest : List Char) :
    decimalDigits (Nat.toDigits 10 n ++ '\n' :: rest) =
      some (Nat.toDigits 10 n, '\n' :: rest) := by
  rcases toDigits_cases n with h | ⟨d, ds, h, h0, hd, hds⟩
  · rw [h]
    rfl
  · rw [h, List.cons_append, decimalDigits]
    · rw [digits, if_pos hd, moreDigits_digits hds]
      rfl
    · simp [h0]

theorem toDigits_eq_cons (n : Nat) :
    ∃ d ds, Nat.toDigits 10 n = d :: ds ∧ isDigit d = true := by
  rcases toDigits_cases n with h | ⟨d, ds, h, -, hd, -⟩
  · exact ⟨_, _, h, rfl⟩
  · exact ⟨d, ds, h, hd⟩

theorem toDigits_ne_cons {c : Char} (hc : isDigit c = false) (n : Nat) (rest t : List Char) :
    Nat.toDigits 10 n ++ rest ≠ c :: t := by
  obtain ⟨d, ds, hn, hd⟩ := toDigits_eq_cons n
  rw [hn]
  intro h
  exact ne_of_isDigit hd hc (List.cons.inj h).1

theorem sign_toDigits (n : Nat) (rest : List Char) :
    sign (Nat.toDigits 10 n ++ rest) = (false, Nat.toDigits 10 n ++ rest) := by
  rw [sign]
  · exact toDigits_ne_cons (by decide) n rest
  · exact toDigits_ne_cons (by decide) n rest

theorem float_toDigits (n : Nat) (rest : List Char) :
    float (Nat.toDigits 10 n ++ '\n' :: rest) = .other := by
  simp only [float, sign_toDigits]
  split
  · next h => exact absurd h (toDigits_ne_cons (by decide) n _ _)
  · next h => exact absurd h (toDigits_ne_cons (by decide) n _ _)
  · rw [decimalDigits_toDigits]
    rfl

theorem integer_toDigits (n : Nat) (rest : List Char) :
    integer (Nat.toDigits 10 n ++ '\n' :: rest) = (integer? n).map fun v => (v, '\n' :: rest) := by
  have hprefix : ∀ c t, c ≠ '\n' → Nat.toDigits 10 n ++ '\n' :: rest ≠ '0' :: c :: t := by
    intro c t hc h
    rcases toDigits_cases n with hn | ⟨d, ds, hn, h0, -, -⟩
    · rw [hn] at h
      exact hc (List.cons.inj (List.cons.inj h).2).1.symm
    · rw [hn] at h
      exact h0 (List.cons.inj h).1
  rw [integer]
  · rw [sign_toDigits]
    dsimp only
    rw [decimalDigits_toDigits, Option.bind_eq_bind, Option.bind_some]
    dsimp only
    rw [natOf_toDigits, if_neg Bool.false_ne_true, Option.map_eq_bind]
    rfl
  · exact fun t => hprefix 'x' t (by decide)
  · exact fun t => hprefix 'o' t (by decide)
  · exact fun t => hprefix 'b' t (by decide)

theorem number_toDigits (n : Nat) (rest : List Char) :
    number (Nat.toDigits 10 n ++ '\n' :: rest) = (integer? n).map fun v => (v, '\n' :: rest) := by
  rw [number, (digits_toDigits n).moment, float_toDigits]
  exact integer_toDigits n rest

end HeapPressure.Toml
