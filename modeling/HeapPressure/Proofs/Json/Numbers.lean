import HeapPressure.Proofs.Json.Grammar
import HeapPressure.Proofs.Text.Numerals
import Mathlib.Data.List.TakeWhile
import Mathlib.Data.Option.Basic

/-!
Numbers of JSON: what is scanned is what the grammar says, as long as nothing behind it carries it
on.
-/
namespace HeapPressure.Json

open HeapPressure.Text (takeWhile_append_stop dropWhile_append_stop isDigit_of_mem_toDigits
  toDigits_eq_cons_zero)

/-- The literal of an integer. -/
def Number.ofInt : Int → Number
  | .ofNat k => ⟨false, k, [], none⟩
  | .negSucc k => ⟨true, k + 1, [], none⟩

variable {n : Number} {negative : Bool} {fraction : List Nat} {exponent : Option Int}
  {ds f e w cs rest : List Char}

/-- Nothing that could belong to the digits in front of it. -/
def EndsDigits (rest : List Char) : Prop := ∀ c ∈ rest.head?, isDigit c = false

/-- Where a number ends: nothing behind it carries it on. -/
def EndsNumber (rest : List Char) : Prop :=
  ∀ c ∈ rest.head?, isDigit c = false ∧ c ≠ '.' ∧ c ≠ 'e' ∧ c ≠ 'E'

theorem Digits.takeWhile (h : Digits ds) (hr : EndsDigits rest) :
    (ds ++ rest).takeWhile isDigit = ds := takeWhile_append_stop h.digit hr

theorem Digits.dropWhile (h : Digits ds) (hr : EndsDigits rest) :
    (ds ++ rest).dropWhile isDigit = rest := dropWhile_append_stop h.digit hr

/-- The digits in front of a text, where it has some. -/
theorem digits_takeWhile (h : (cs.takeWhile isDigit).isEmpty = false) :
    Digits (cs.takeWhile isDigit) where
  ne_nil hnil := by simp [hnil] at h
  digit _ hd := List.mem_takeWhile_imp hd

theorem EndsNumber.endsDigits (h : EndsNumber rest) : EndsDigits rest := fun c hc => (h c hc).1

theorem WritesFraction.scanFraction (h : WritesFraction fraction f) (hr : EndsDigits rest)
    (hpoint : ∀ c ∈ rest.head?, c ≠ '.') :
    scanFraction (f ++ rest) = some (fraction, rest) := by
  cases h with
  | absent =>
    cases rest with
    | nil => rfl
    | cons c rest =>
      have hc := hpoint c rfl
      rw [List.nil_append, Json.scanFraction]
      simpa using hc
  | present h =>
    rw [List.cons_append, Json.scanFraction, h.takeWhile hr, h.dropWhile hr]
    simp [h.ne_nil]

theorem writesFraction_of_scanFraction (h : scanFraction cs = some (fraction, rest)) :
    ∃ f, cs = f ++ rest ∧ WritesFraction fraction f := by
  unfold scanFraction at h
  split at h
  · next cs =>
    simp only [Option.ite_none_left_eq_some, Bool.not_eq_true] at h
    obtain ⟨hds, h⟩ := h
    cases h
    refine ⟨'.' :: cs.takeWhile isDigit, ?_, .present (digits_takeWhile hds)⟩
    rw [List.cons_append, List.takeWhile_append_dropWhile]
  · cases h
    exact ⟨[], rfl, .absent⟩

theorem WritesExponent.scanExponent (h : WritesExponent exponent e) (hr : EndsNumber rest) :
    scanExponent (e ++ rest) = some (exponent, rest) := by
  cases h with
  | absent =>
    cases rest with
    | nil => rfl
    | cons c rest =>
      obtain ⟨-, -, he, hE⟩ := hr c rfl
      simp [Json.scanExponent, he, hE]
  | @bare e ds he h =>
    obtain ⟨d, ds, rfl⟩ := List.exists_cons_of_ne_nil h.ne_nil
    have hd : isDigit d = true := h.digit d List.mem_cons_self
    have hplus : d ≠ '+' := by rintro rfl; revert hd; decide
    have hminus : d ≠ '-' := by rintro rfl; revert hd; decide
    have htake := h.takeWhile hr.endsDigits
    have hdrop := h.dropWhile hr.endsDigits
    rw [List.cons_append] at htake hdrop
    rw [List.cons_append, List.cons_append, Json.scanExponent]
    · simp [he, htake, hdrop]
    · exact fun _ hcs => hplus (List.cons.inj hcs).1
    · exact fun _ hcs => hminus (List.cons.inj hcs).1
  | @plus e ds he h =>
    rw [List.cons_append, List.cons_append, Json.scanExponent]
    simp [he, h.takeWhile hr.endsDigits, h.dropWhile hr.endsDigits, h.ne_nil]
  | @minus e ds he h =>
    rw [List.cons_append, List.cons_append, Json.scanExponent]
    simp [he, h.takeWhile hr.endsDigits, h.dropWhile hr.endsDigits, h.ne_nil]

theorem writesExponent_of_scanExponent (h : scanExponent cs = some (exponent, rest)) :
    ∃ e, cs = e ++ rest ∧ WritesExponent exponent e := by
  unfold scanExponent at h
  split at h
  · next c cs =>
    split at h
    · next hc =>
      simp only [Bool.or_eq_true, beq_iff_eq] at hc
      split at h
      next negative cs' hsign =>
        simp only [Option.ite_none_left_eq_some, Bool.not_eq_true] at h
        obtain ⟨hds, h⟩ := h
        cases h
        have hdigits := digits_takeWhile hds
        have hcs := List.takeWhile_append_dropWhile (p := isDigit) (l := cs')
        -- a plus, a minus or no sign in front of the digits
        split at hsign <;> cases hsign
        · exact ⟨_, by rw [List.cons_append, List.cons_append, hcs], .plus hc hdigits⟩
        · exact ⟨_, by rw [List.cons_append, List.cons_append, hcs], .minus hc hdigits⟩
        · exact ⟨_, by rw [List.cons_append, hcs], .bare hc hdigits⟩
    · cases h
      exact ⟨[], rfl, .absent⟩
  · cases h
    exact ⟨[], rfl, .absent⟩

theorem WritesExponent.head (h : WritesExponent exponent e) (hr : EndsNumber rest) :
    ∀ c ∈ (e ++ rest).head?, isDigit c = false ∧ c ≠ '.' := by
  cases h with
  | absent => exact fun c hc => ⟨(hr c hc).1, (hr c hc).2.1⟩
  | bare he | plus he | minus he =>
    intro c hc
    cases hc
    rcases he with rfl | rfl <;> decide

theorem WritesFraction.endsDigits (h : WritesFraction fraction f) (hr : EndsDigits rest) :
    EndsDigits (f ++ rest) := by
  cases h with
  | absent => exact hr
  | present h =>
    intro c hc
    cases hc
    decide

theorem WritesUnsigned.scanNumber (h : WritesUnsigned n w) (hr : EndsNumber rest) :
    scanNumber n.negative (w ++ rest) = some (n, rest) := by
  cases h with
  | @mk negative fraction exponent ds f e h hzero hf he =>
    have hhead := he.head hr
    have hends : EndsDigits (e ++ rest) := fun c hc => (hhead c hc).1
    have hfirst : (!ds.isEmpty && (ds.length == 1 || ds.head? != some '0')) = true := by
      simp [h.ne_nil, hzero]
    rw [List.append_assoc, List.append_assoc, Json.scanNumber,
      h.takeWhile (hf.endsDigits hends), h.dropWhile (hf.endsDigits hends), hfirst]
    simp only [guard, if_true, pure_bind]
    rw [hf.scanFraction hends fun c hc => (hhead c hc).2]
    simp [he.scanExponent hr]

theorem writesUnsigned_of_scanNumber (h : scanNumber negative cs = some (n, rest)) :
    n.negative = negative ∧ ∃ w, cs = w ++ rest ∧ WritesUnsigned n w := by
  simp only [scanNumber, Option.bind_eq_bind, Option.bind_eq_some_iff, Option.guard_eq_some'] at h
  obtain ⟨-, hfirst, ⟨fraction, cs'⟩, hf, ⟨exponent, rest'⟩, he, h⟩ := h
  cases h
  dsimp only at hf he ⊢
  simp only [Bool.and_eq_true, Bool.not_eq_true', Bool.or_eq_true, beq_iff_eq, bne_iff_ne] at hfirst
  obtain ⟨f, hcs, hf'⟩ := writesFraction_of_scanFraction hf
  obtain ⟨e, rfl, he'⟩ := writesExponent_of_scanExponent he
  refine ⟨rfl, _, ?_, .mk (digits_takeWhile hfirst.1) hfirst.2 hf' he'⟩
  rw [List.append_assoc, List.append_assoc, ← hcs, List.takeWhile_append_dropWhile]

theorem digits_toDigits (n : Nat) : Digits (Nat.toDigits 10 n) where
  ne_nil := Nat.toDigits_ne_nil
  digit _ hd := isDigit_of_mem_toDigits hd

theorem writesUnsigned_toDigits (negative : Bool) (n : Nat) :
    WritesUnsigned ⟨negative, n, [], none⟩ (Nat.toDigits 10 n) := by
  have hzero : (Nat.toDigits 10 n).length = 1 ∨ (Nat.toDigits 10 n).head? ≠ some '0' := by
    cases hn : Nat.toDigits 10 n with
    | nil => exact absurd hn Nat.toDigits_ne_nil
    | cons d ds =>
      by_cases hd : d = '0'
      · subst hd
        simp [toDigits_eq_cons_zero hn]
      · simp [hd]
  have h : WritesUnsigned ⟨negative, natOfDigits (Nat.toDigits 10 n), [], none⟩ _ :=
    .mk (digits_toDigits n) hzero .absent .absent
  simpa [natOfDigits_toDigits] using h

end HeapPressure.Json
