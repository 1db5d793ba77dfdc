import HeapPressure.Toml.Lexis
import HeapPressure.Toml.Writer
import HeapPressure.Proofs.Text.Numerals

/-!
Strings of TOML. Each quoting is undone by the scanner that its opening quotes choose: escapes,
runs of quotes up to the closing ones, and the line end behind the opening quotes.
-/
namespace HeapPressure.Toml

open HeapPressure.Text (hexValue? charOfHex? hexValue?_digitChar)

theorem isText_of_not_isControl {c : Char} (h : isControl c = false) (hn : c ≠ '\n') :
    isText c = true := by
  by_cases ht : c = '\t'
  · subst ht
    decide
  have hc : 0x20 ≤ c.toNat ∧ c ≠ '\x7f' := by
    simpa [isControl, ht, hn] using h
  have hd : c.toNat ≠ 0x7f := fun hd => hc.2 (Char.toNat_inj.mp hd)
  simp only [isText, Bool.or_eq_true, Bool.and_eq_true, decide_eq_true_eq, Char.le_def,
    UInt32.le_iff_toNat_le]
  change (_ ∨ 0x20 ≤ c.toNat ∧ c.toNat ≤ 0x7e) ∨ 0x80 ≤ c.toNat
  omega

theorem hexValue?_hexDigit (n : Nat) : hexValue? (hexDigit n) = some (n % 16) := by
  have h : ∀ m < 16, hexValue? (Nat.digitChar m).toUpper = some m := by decide
  exact h (n % 16) (Nat.mod_lt n (by decide))

theorem charOfHex?_hexDigit {c : Char} (h : c.toNat < 0xD800) :
    charOfHex? [hexDigit (c.toNat / 4096), hexDigit (c.toNat / 256), hexDigit (c.toNat / 16),
      hexDigit c.toNat] = some c := by
  have hn : (((0 * 16 + c.toNat / 4096 % 16) * 16 + c.toNat / 256 % 16) * 16
      + c.toNat / 16 % 16) * 16 + c.toNat % 16 = c.toNat := by omega
  simp only [charOfHex?, List.foldlM_cons, List.foldlM_nil, hexValue?_hexDigit, Option.bind_eq_bind,
    Option.pure_def, Option.bind_some, hn]
  simp [h, Char.ofNat_toNat]

/-- The three ways in which a character stands in a basic string. -/
theorem escape_cases (c : Char) :
    (∃ e, shortEscape? e = some c ∧ escape c = ['\\', e]) ∨
    (c.toNat < 0xD800 ∧ escape c = ['\\', 'u', hexDigit (c.toNat / 4096),
      hexDigit (c.toNat / 256), hexDigit (c.toNat / 16), hexDigit c.toNat]) ∨
    (isText c = true ∧ c ≠ '\"' ∧ c ≠ '\\' ∧ escape c = [c]) := by
  unfold escape
  split
  · next h => subst h; exact .inl ⟨'b', rfl, rfl⟩
  split
  · next h => subst h; exact .inl ⟨'t', rfl, rfl⟩
  split
  · next h => subst h; exact .inl ⟨'n', rfl, rfl⟩
  split
  · next h => subst h; exact .inl ⟨'f', rfl, rfl⟩
  split
  · next h => subst h; exact .inl ⟨'r', rfl, rfl⟩
  split
  · next h => subst h; exact .inl ⟨'\"', rfl, rfl⟩
  split
  · next h => subst h; exact .inl ⟨'\\', rfl, rfl⟩
  split
  · next h =>
    refine .inr (.inl ⟨?_, rfl⟩)
    simp only [isControl, Bool.or_eq_true, Bool.and_eq_true, decide_eq_true_eq, beq_iff_eq] at h
    rcases h with h | rfl
    · omega
    · decide
  · next hn _ _ hq hb h =>
    exact .inr (.inr ⟨isText_of_not_isControl (by simpa using h) hn, hq, hb, rfl⟩)

/-- No letter of a short escape begins another escape or ends a line. -/
theorem shortEscape?_ne {e c : Char} (h : shortEscape? e = some c) :
    e ≠ 'u' ∧ e ≠ 'U' ∧ e ≠ ' ' ∧ e ≠ '\t' ∧ e ≠ '\n' ∧ e ≠ '\r' := by
  refine ⟨?_, ?_, ?_, ?_, ?_, ?_⟩ <;> (rintro rfl; simp [shortEscape?] at h)

theorem basicString_escape (c : Char) (cs : List Char) :
    basicString (escape c ++ cs) = push c (basicString cs) := by
  rcases escape_cases c with ⟨e, he, h⟩ | ⟨hc, h⟩ | ⟨ht, hq, hb, h⟩
  · obtain ⟨hu, hU, -⟩ := shortEscape?_ne he
    rw [h]
    simp only [List.cons_append, List.nil_append]
    rw [basicString]
    · simp [he]
    all_goals simp [hu, hU]
  · rw [h]
    simp only [List.cons_append, List.nil_append]
    rw [basicString, charOfHex?_hexDigit hc]
    rfl
  · rw [h]
    simp only [List.cons_append, List.nil_append]
    rw [basicString]
    · simp [ht, hb]
    all_goals simp [hq, hb]

theorem basicString_body (s rest : List Char) :
    basicString (basicBody s ++ '\"' :: rest) = some (s, rest) := by
  induction s with
  | nil => rfl
  | cons c s ih =>
    rw [basicBody, List.flatMap_cons, List.append_assoc, basicString_escape, ← basicBody, ih]
    rfl

theorem literalString_body {s : List Char} (hs : ∀ c ∈ s, isText c = true ∧ c ≠ '\'')
    (rest : List Char) : literalString (s ++ '\'' :: rest) = some (s, rest) := by
  induction s with
  | nil => rfl
  | cons c s ih =>
    obtain ⟨hc, hq⟩ := hs c List.mem_cons_self
    rw [List.cons_append, literalString]
    · rw [if_pos hc, ih fun d hd => hs d (List.mem_cons_of_mem c hd)]
      rfl
    · exact hq

/-- The characters between the quotes of a string of several lines. -/
def isLongText (c : Char) : Bool := isText c || c == '\n'

theorem longBasicString_plain {c : Char} (hc : isLongText c = true) (hq : c ≠ '\"')
    (hb : c ≠ '\\') (cs : List Char) :
    longBasicString .none (c :: cs) = push c (longBasicString .none cs) := by
  have hr : c ≠ '\r' := by
    rintro rfl
    revert hc
    decide
  rw [isLongText] at hc
  rw [longBasicString]
  · simp [hc, hb]
  all_goals simp [hq, hb, hr]

theorem longBasicString_escape (c : Char) (cs : List Char) :
    longBasicString .none (escape c ++ cs) = push c (longBasicString .none cs) := by
  rcases escape_cases c with ⟨e, he, h⟩ | ⟨hc, h⟩ | ⟨ht, hq, hb, h⟩
  · obtain ⟨hu, hU, hs, ht, hn, hr⟩ := shortEscape?_ne he
    rw [h]
    simp only [List.cons_append, List.nil_append]
    rw [longBasicString]
    · simp [he]
    all_goals simp [hu, hU, hs, ht, hn, hr]
  · rw [h]
    simp only [List.cons_append, List.nil_append]
    rw [longBasicString, charOfHex?_hexDigit hc]
    · rfl
    · simp
  · rw [h]
    exact longBasicString_plain (by rw [isLongText, ht]; rfl) hq hb cs

/-- What stands behind a run of quotes and ends it. -/
def EndsQuotes (quote : Char) (cs : List Char) : Prop := ∀ t, cs ≠ quote :: t

theorem endsQuotes_cons {quote c : Char} (h : c ≠ quote) (cs : List Char) :
    EndsQuotes quote (c :: cs) := by
  intro t ht
  exact h (List.cons.inj ht).1

theorem endsQuotes_escape (c : Char) (cs : List Char) : EndsQuotes '\"' (escape c ++ cs) := by
  rcases escape_cases c with ⟨e, -, h⟩ | ⟨-, h⟩ | ⟨-, hq, -, h⟩
  · rw [h]
    exact endsQuotes_cons (by decide) _
  · rw [h]
    exact endsQuotes_cons (by decide) _
  · rw [h]
    exact endsQuotes_cons hq _

/-- One quote, or two in a row, belong to the string. -/
theorem scan_quotes {scan : List Char → Option (List Char × List Char)} {quote : Char}
    (hscan : ∀ cs, (∀ t, cs ≠ quote :: quote :: t) → scan (quote :: cs) = push quote (scan cs))
    {k : Nat} (hk : k ≤ 2) {s cs rest : List Char} (hc : EndsQuotes quote cs)
    (h : scan cs = some (s, rest)) :
    scan (List.replicate k quote ++ cs) = some (List.replicate k quote ++ s, rest) := by
  have h₁ : scan (quote :: cs) = some (quote :: s, rest) := by
    rw [hscan cs fun t => hc _, h]
    rfl
  match k, hk with
  | 0, _ => exact h
  | 1, _ => exact h₁
  | 2, _ =>
    have h₂ : ∀ t, quote :: cs ≠ quote :: quote :: t := fun t ht => hc t (List.cons.inj ht).2
    change scan (quote :: quote :: cs) = some (quote :: quote :: s, rest)
    rw [hscan _ h₂, h₁]
    rfl

theorem longBasicString_quote {cs : List Char} (h : ∀ t, cs ≠ '\"' :: '\"' :: t) :
    longBasicString .none ('\"' :: cs) = push '\"' (longBasicString .none cs) := by
  rw [longBasicString]
  · rfl
  all_goals simp_all

/-- Of the quotes at the end the last three close the string. -/
theorem longBasicString_close {k : Nat} (hk : k ≤ 2) {rest : List Char}
    (hr : EndsQuotes '\"' rest) :
    longBasicString .none (List.replicate k '\"' ++ '\"' :: '\"' :: '\"' :: rest) =
      some (List.replicate k '\"', rest) := by
  unfold EndsQuotes at hr
  match k, hk with
  | 0, _ =>
    change longBasicString .none ('\"' :: '\"' :: '\"' :: rest) = _
    rw [longBasicString]
    · rfl
    all_goals simp_all
  | 1, _ =>
    change longBasicString .none ('\"' :: '\"' :: '\"' :: '\"' :: rest) = _
    rw [longBasicString]
    · rfl
    all_goals simp_all
  | 2, _ => rfl

theorem longBasicString_body {rest : List Char} (hr : EndsQuotes '\"' rest) (s : List Char)
    {k : Nat} (hk : k ≤ 2) :
    longBasicString .none
        (List.replicate k '\"' ++ (longBasicBody k s ++ '\"' :: '\"' :: '\"' :: rest)) =
      some (List.replicate k '\"' ++ s, rest) := by
  -- `k` quotes stand in front, not read yet: what follows tells whether they close the string
  induction s generalizing k with
  | nil => simpa [longBasicBody] using longBasicString_close hk hr
  | cons c s ih =>
    have ih₀ := ih (Nat.zero_le 2)
    simp only [List.replicate_zero, List.nil_append] at ih₀
    rw [longBasicBody]
    split
    · next hc =>
      subst hc
      split
      · next hk2 =>
        subst hk2
        rw [List.append_assoc]
        refine scan_quotes (fun _ => longBasicString_quote) hk (endsQuotes_escape _ _) ?_
        rw [longBasicString_escape, ih₀]
        rfl
      · next hk2 =>
        have := ih (k := k + 1) (by omega)
        simpa [List.replicate_succ'] using this
    · next hc =>
      split
      · next hn =>
        subst hn
        refine scan_quotes (fun _ => longBasicString_quote) hk (endsQuotes_cons (by decide) _) ?_
        rw [List.cons_append, longBasicString_plain (by decide) (by decide) (by decide), ih₀]
        rfl
      · rw [List.append_assoc]
        refine scan_quotes (fun _ => longBasicString_quote) hk (endsQuotes_escape _ _) ?_
        rw [longBasicString_escape, ih₀]
        rfl

theorem longLiteralString_plain {c : Char} (hc : isLongText c = true) (hq : c ≠ '\'')
    (cs : List Char) : longLiteralString (c :: cs) = push c (longLiteralString cs) := by
  have hr : c ≠ '\r' := by
    rintro rfl
    revert hc
    decide
  rw [isLongText] at hc
  rw [longLiteralString]
  · rw [if_pos hc]
  all_goals simp_all

theorem longLiteralString_quote {cs : List Char} (h : ∀ t, cs ≠ '\'' :: '\'' :: t) :
    longLiteralString ('\'' :: cs) = push '\'' (longLiteralString cs) := by
  rw [longLiteralString]
  · rfl
  all_goals simp_all

theorem longLiteralString_close {k : Nat} (hk : k ≤ 2) {rest : List Char}
    (hr : EndsQuotes '\'' rest) :
    longLiteralString (List.replicate k '\'' ++ '\'' :: '\'' :: '\'' :: rest) =
      some (List.replicate k '\'', rest) := by
  unfold EndsQuotes at hr
  match k, hk with
  | 0, _ =>
    change longLiteralString ('\'' :: '\'' :: '\'' :: rest) = _
    rw [longLiteralString]
    · rfl
    all_goals simp_all
  | 1, _ =>
    change longLiteralString ('\'' :: '\'' :: '\'' :: '\'' :: rest) = _
    rw [longLiteralString]
    · rfl
    all_goals simp_all
  | 2, _ => rfl

theorem le_longestRun (q : Char) (now : Nat) (s : List Char) : now ≤ longestRun q now s := by
  induction s generalizing now with
  | nil => exact Nat.le_refl now
  | cons c s ih =>
    rw [longestRun]
    split
    · exact Nat.le_of_succ_le (ih (now + 1))
    · exact Nat.le_max_left now _

theorem longLiteralString_body {rest : List Char} (hr : EndsQuotes '\'' rest) {s : List Char}
    (hs : ∀ c ∈ s, isLongText c = true) {k : Nat} (hk : longestRun '\'' k s ≤ 2) :
    longLiteralString (List.replicate k '\'' ++ (s ++ '\'' :: '\'' :: '\'' :: rest)) =
      some (List.replicate k '\'' ++ s, rest) := by
  induction s generalizing k with
  | nil =>
    have hk : k ≤ 2 := hk
    simpa using longLiteralString_close hk hr
  | cons c s ih =>
    obtain ⟨hc₀, hs₀⟩ := List.forall_mem_cons.mp hs
    have hk2 : k ≤ 2 := Nat.le_trans (le_longestRun '\'' k _) hk
    rw [longestRun] at hk
    split at hk
    · next hc =>
      obtain rfl : c = '\'' := by simpa using hc
      have := ih hs₀ hk
      simpa [List.replicate_succ'] using this
    · next hc =>
      have hc' : c ≠ '\'' := by simpa using hc
      have ih₀ := ih (k := 0) hs₀ (by omega)
      simp only [List.replicate_zero, List.nil_append] at ih₀
      refine scan_quotes (fun _ => longLiteralString_quote) hk2 (endsQuotes_cons hc' _) ?_
      rw [List.cons_append, longLiteralString_plain hc₀ hc', ih₀]
      rfl

end HeapPressure.Toml
