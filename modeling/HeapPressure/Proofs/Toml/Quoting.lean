import HeapPressure.Proofs.Toml.Strings

/-!
The choice of a quoting suits the string, so a quoted string is read back whole, unless a quote
stands directly behind it.
-/
namespace HeapPressure.Toml

theorem Quoting.choose_literal {t : Traits} (h : Quoting.choose t = .literal) :
    t.controls = false ∧ t.singles = 0 ∧ t.newlines = false := by
  unfold choose at h
  split_ifs at h
  all_goals simp_all

theorem Quoting.choose_longLiteral {t : Traits} (h : Quoting.choose t = .longLiteral) :
    t.controls = false ∧ t.singles ≤ 2 := by
  unfold choose at h
  split_ifs at h
  all_goals simp_all

theorem Traits.not_isControl {s : List Char} (h : (Traits.of s).controls = false) :
    ∀ c ∈ s, isControl c = false := by
  simpa [Traits.of] using h

theorem Traits.ne_newline {s : List Char} (h : (Traits.of s).newlines = false) :
    ∀ c ∈ s, c ≠ '\n' := by
  intro c hc hn
  simp only [Traits.of, List.any_eq_false] at h
  exact h c hc (by simp [hn])

theorem ne_of_longestRun_eq_zero {q : Char} {s : List Char} (h : longestRun q 0 s = 0) :
    ∀ c ∈ s, c ≠ q := by
  induction s with
  | nil => simp
  | cons c s ih =>
    rw [longestRun] at h
    split at h
    · have := le_longestRun q (0 + 1) s
      omega
    · next hc =>
      have hs : longestRun q 0 s = 0 := by omega
      simpa using ⟨by simpa using hc, ih hs⟩

theorem isLongText_of_not_isControl {c : Char} (h : isControl c = false) :
    isLongText c = true := by
  by_cases hn : c = '\n'
  · subst hn
    decide
  · rw [isLongText, isText_of_not_isControl h hn]
    rfl

theorem newline?_of_isText {c : Char} (h : isText c = true) (cs : List Char) :
    newline? (c :: cs) = none := by
  have hn : c ≠ '\n' := by
    rintro rfl
    revert h
    decide
  have hr : c ≠ '\r' := by
    rintro rfl
    revert h
    decide
  rw [newline?]
  all_goals simp_all

theorem newline?_escape (c : Char) (cs : List Char) : newline? (escape c ++ cs) = none := by
  rcases escape_cases c with ⟨e, -, h⟩ | ⟨-, h⟩ | ⟨ht, -, -, h⟩
  · rw [h]
    exact newline?_of_isText (by decide) _
  · rw [h]
    exact newline?_of_isText (by decide) _
  · rw [h]
    exact newline?_of_isText ht _

theorem newline?_longBasicBody {s : List Char} (hs : ∀ c ∈ s, c ≠ '\n') (rest : List Char) :
    newline? (longBasicBody 0 s ++ '\"' :: rest) = none := by
  cases s with
  | nil => rfl
  | cons c s =>
    rw [longBasicBody]
    split
    · next hc => subst hc; rfl
    · rw [if_neg (hs c List.mem_cons_self), List.append_assoc]
      exact newline?_escape c _

/-- The line end behind the opening quotes is dropped, and stands there whenever the string
could begin with one. -/
theorem dropFirstNewline_opening {newlines : Bool} {cs : List Char}
    (h : newlines = false → newline? cs = none) :
    dropFirstNewline ((if newlines then ['\n'] else []) ++ cs) = cs := by
  cases newlines with
  | true => rfl
  | false => simp [dropFirstNewline, h rfl]

theorem string?_basic {cs : List Char} (h : ∀ t, cs ≠ '\"' :: '\"' :: t) :
    string? ('\"' :: cs) = basicString cs := by
  rw [string?]
  simpa using h

theorem string?_literal {cs : List Char} (h : ∀ t, cs ≠ '\'' :: '\'' :: t) :
    string? ('\'' :: cs) = literalString cs := by
  rw [string?]
  simpa using h

section
variable {s rest : List Char}

theorem string?_writeBasic (newlines : Bool) (s : List Char) (hr : EndsQuotes '\"' rest) :
    string? (Quoting.basic.write newlines s ++ rest) = some (s, rest) := by
  have h : ∀ t, basicBody s ++ '\"' :: rest ≠ '\"' :: '\"' :: t := by
    cases s with
    | nil => exact fun t ht => hr t (List.cons.inj ht).2
    | cons c s =>
      rw [basicBody, List.flatMap_cons, List.append_assoc]
      exact fun t => endsQuotes_escape c _ _
  simp only [Quoting.write, List.append_assoc, List.cons_append, List.nil_append]
  rw [string?_basic h, basicString_body]

theorem string?_writeLiteral (newlines : Bool) (hs : ∀ c ∈ s, isText c = true ∧ c ≠ '\'')
    (hr : EndsQuotes '\'' rest) :
    string? (Quoting.literal.write newlines s ++ rest) = some (s, rest) := by
  have h : ∀ t, s ++ '\'' :: rest ≠ '\'' :: '\'' :: t := by
    cases s with
    | nil => exact fun t ht => hr t (List.cons.inj ht).2
    | cons c s => exact fun t ht => (hs c List.mem_cons_self).2 (List.cons.inj ht).1
  simp only [Quoting.write, List.append_assoc, List.cons_append, List.nil_append]
  rw [string?_literal h, literalString_body hs]

theorem string?_writeLongBasic {newlines : Bool} (hs : newlines = false → ∀ c ∈ s, c ≠ '\n')
    (hr : EndsQuotes '\"' rest) :
    string? (Quoting.longBasic.write newlines s ++ rest) = some (s, rest) := by
  simp only [Quoting.write, List.append_assoc, List.cons_append, List.nil_append]
  rw [string?, dropFirstNewline_opening fun hn => newline?_longBasicBody (hs hn) _]
  exact longBasicString_body hr s (Nat.zero_le 2)

theorem string?_writeLongLiteral {newlines : Bool} (hs : newlines = false → ∀ c ∈ s, c ≠ '\n')
    (hc : ∀ c ∈ s, isControl c = false) (hq : longestRun '\'' 0 s ≤ 2)
    (hr : EndsQuotes '\'' rest) :
    string? (Quoting.longLiteral.write newlines s ++ rest) = some (s, rest) := by
  have hopen : newlines = false → newline? (s ++ '\'' :: '\'' :: '\'' :: rest) = none := by
    intro hn
    cases s with
    | nil => rfl
    | cons c s =>
      have ht : isText c = true :=
        isText_of_not_isControl (hc c List.mem_cons_self) (hs hn c List.mem_cons_self)
      exact newline?_of_isText ht _
  simp only [Quoting.write, List.append_assoc, List.cons_append, List.nil_append]
  rw [string?, dropFirstNewline_opening hopen]
  exact longLiteralString_body hr (fun c hcs => isLongText_of_not_isControl (hc c hcs)) hq

end

theorem string?_quoteChars (s : List Char) {rest : List Char} (hd : EndsQuotes '\"' rest)
    (hs : EndsQuotes '\'' rest) : string? (quoteChars s ++ rest) = some (s, rest) := by
  rw [quoteChars]
  cases hq : Quoting.choose (Traits.of s) with
  | basic => exact string?_writeBasic _ s hd
  | literal =>
    obtain ⟨hc, h0, hn⟩ := Quoting.choose_literal hq
    refine string?_writeLiteral _ (fun c hcs => ⟨?_, ne_of_longestRun_eq_zero h0 c hcs⟩) hs
    exact isText_of_not_isControl (Traits.not_isControl hc c hcs) (Traits.ne_newline hn c hcs)
  | longBasic => exact string?_writeLongBasic Traits.ne_newline hd
  | longLiteral =>
    obtain ⟨hc, h2⟩ := Quoting.choose_longLiteral hq
    exact string?_writeLongLiteral Traits.ne_newline (Traits.not_isControl hc) h2 hs

theorem quoteChars_head (s : List Char) :
    ∃ t, quoteChars s = '\"' :: t ∨ quoteChars s = '\'' :: t := by
  rw [quoteChars]
  cases Quoting.choose (Traits.of s) with
  | basic => exact ⟨_, .inl rfl⟩
  | literal => exact ⟨_, .inr rfl⟩
  | longBasic => exact ⟨_, .inl rfl⟩
  | longLiteral => exact ⟨_, .inr rfl⟩

end HeapPressure.Toml
