import HeapPressure.Toml.Reader
import HeapPressure.Proofs.Toml.Integers
import HeapPressure.Proofs.Toml.Quoting

/-!
Lines of TOML as the writer lays them out: a bare key with an integer or a quoted string, or a
header with a bare key. Each is read as one line, and the text behind it is left.
-/
namespace HeapPressure.Toml

open HeapPressure.Text (takeWhile_append_stop dropWhile_append_stop)

/-- The values that are written. -/
inductive Plain where
  | integer (n : Nat)
  | string (s : String)

namespace Plain

def chars : Plain → List Char
  | .integer n => Nat.toDigits 10 n
  | .string s => quoteChars s.toList

def scalar : Plain → Scalar
  | .integer n => .integer n
  | .string s => .string s

/-- Integers have 63 bits. -/
def Fits : Plain → Prop
  | .integer n => n < 0x8000000000000000
  | .string _ => True

/-- A plain value begins with a digit or a quote. -/
theorem chars_head (v : Plain) :
    ∃ c t, v.chars = c :: t ∧ isBlank c = false ∧ c ≠ '[' ∧ c ≠ '\x7b' := by
  cases v with
  | integer n =>
    obtain ⟨d, ds, h, hd⟩ := toDigits_eq_cons n
    have hs : d ≠ ' ' := ne_of_isDigit hd (by decide)
    have ht : d ≠ '\t' := ne_of_isDigit hd (by decide)
    refine ⟨d, ds, h, ?_, ne_of_isDigit hd (by decide), ne_of_isDigit hd (by decide)⟩
    simp [isBlank, hs, ht]
  | string s =>
    obtain ⟨t, h | h⟩ := quoteChars_head s.toList
    · exact ⟨_, t, h, by decide, by decide, by decide⟩
    · exact ⟨_, t, h, by decide, by decide, by decide⟩

theorem scalar_string (s : String) (rest : List Char) :
    Toml.scalar (quoteChars s.toList ++ '\n' :: rest) = some (.string s, '\n' :: rest) := by
  have hread : string? (quoteChars s.toList ++ '\n' :: rest) = some (s.toList, '\n' :: rest) :=
    string?_quoteChars s.toList (endsQuotes_cons (by decide) rest)
      (endsQuotes_cons (by decide) rest)
  obtain ⟨t, h | h⟩ := quoteChars_head s.toList
  · rw [h] at hread ⊢
    rw [List.cons_append] at hread ⊢
    rw [Toml.scalar, hread]
    simp
  · rw [h] at hread ⊢
    rw [List.cons_append] at hread ⊢
    rw [Toml.scalar, hread]
    simp

theorem scalar_integer {n : Nat} (hn : n < 0x8000000000000000) (rest : List Char) :
    Toml.scalar (Nat.toDigits 10 n ++ '\n' :: rest) = some (.integer n, '\n' :: rest) := by
  have hint : integer? n = some (.integer n) := by
    rw [integer?, if_pos (by omega)]
  have hread : number (Nat.toDigits 10 n ++ '\n' :: rest) = some (.integer n, '\n' :: rest) := by
    rw [number_toDigits, hint]
    rfl
  obtain ⟨d, ds, h, hd⟩ := toDigits_eq_cons n
  rw [h] at hread ⊢
  rw [List.cons_append] at hread ⊢
  rw [Toml.scalar]
  · simpa [hd] using hread
  all_goals exact ne_of_isDigit hd (by decide)

theorem scalar_chars {v : Plain} (hv : v.Fits) (rest : List Char) :
    Toml.scalar (v.chars ++ '\n' :: rest) = some (v.scalar, '\n' :: rest) := by
  cases v with
  | integer n => exact scalar_integer hv rest
  | string s => exact scalar_string s rest

/-- A plain value is no array and no table in braces. -/
theorem anyValue_chars {v : Plain} (hv : v.Fits) (rest : List Char) :
    ∃ span, anyValue (v.chars ++ '\n' :: rest) = some (.leaf v.scalar span, '\n' :: rest) := by
  have hread := scalar_chars hv rest
  obtain ⟨c, t, h, -, ha, hb⟩ := v.chars_head
  rw [h] at hread ⊢
  rw [List.cons_append] at hread ⊢
  rw [anyValue, value]
  · rw [hread]
    exact ⟨_, rfl⟩
  · simpa using ha
  · simpa using hb

theorem skipBlanks_chars (v : Plain) (cs : List Char) :
    skipBlanks (v.chars ++ cs) = v.chars ++ cs := by
  obtain ⟨c, t, h, hc, -, -⟩ := v.chars_head
  rw [h, List.cons_append, skipBlanks, hc]
  rfl

end Plain

/-- A key that needs no quotes. -/
structure Bare (name : String) : Prop where
  nonempty : name.toList ≠ []
  chars : ∀ c ∈ name.toList, isBareKeyChar c = true

namespace Bare

variable {name : String}

theorem of_all (hn : name.toList ≠ []) (h : name.toList.all isBareKeyChar = true) : Bare name :=
  ⟨hn, List.all_eq_true.mp h⟩

theorem head (h : Bare name) : ∃ c t, name.toList = c :: t ∧ isBareKeyChar c = true := by
  cases hn : name.toList with
  | nil => exact absurd hn h.nonempty
  | cons c t => exact ⟨c, t, rfl, h.chars c (by rw [hn]; exact List.mem_cons_self)⟩

theorem ne_cons (h : Bare name) {d : Char} (hd : isBareKeyChar d = false) (cs t : List Char) :
    name.toList ++ cs ≠ d :: t := by
  obtain ⟨c, s, hn, hc⟩ := h.head
  rw [hn]
  intro he
  rw [(List.cons.inj he).1, hd] at hc
  cases hc

theorem skipBlanks (h : Bare name) (cs : List Char) :
    skipBlanks (name.toList ++ cs) = name.toList ++ cs := by
  obtain ⟨c, t, hn, hc⟩ := h.head
  have hb : isBlank c = false := by
    rw [isBlank, Bool.or_eq_false_iff]
    refine ⟨?_, ?_⟩ <;> (rw [beq_eq_false_iff_ne]; rintro rfl; revert hc; decide)
  rw [hn, List.cons_append, Toml.skipBlanks, hb]
  rfl

theorem keyPart (h : Bare name) {d : Char} (hd : isBareKeyChar d = false) (cs : List Char) :
    ∃ span, keyPart (name.toList ++ d :: cs) = some (⟨name, span⟩, d :: cs) := by
  have hcs : ∀ c ∈ (d :: cs).head?, isBareKeyChar c = false := by simpa using hd
  have htake : (name.toList ++ d :: cs).takeWhile isBareKeyChar = name.toList :=
    takeWhile_append_stop h.chars hcs
  have hdrop : (name.toList ++ d :: cs).dropWhile isBareKeyChar = d :: cs :=
    dropWhile_append_stop h.chars hcs
  unfold Toml.keyPart
  split
  · next he => exact absurd he (h.ne_cons (by decide) _ _)
  · next he => exact absurd he (h.ne_cons (by decide) _ _)
  · simp [htake, hdrop, h.nonempty]

/-- Without a dot behind it the key has one part. -/
theorem key (h : Bare name) {d : Char} (hd : isBareKeyChar d = false) {cs : List Char}
    (hdot : ∀ t, Toml.skipBlanks (d :: cs) ≠ '.' :: t) :
    ∃ span, key (name.toList ++ d :: cs) =
      some (([], ⟨name, span⟩), Toml.skipBlanks (d :: cs)) := by
  obtain ⟨span, hpart⟩ := h.keyPart hd cs
  rw [Toml.key, keyPartLimit, dottedKey, h.skipBlanks, hpart, Option.bind_eq_bind,
    Option.bind_some]
  dsimp only
  split
  · next t ht => exact absurd ht (hdot t)
  · exact ⟨span, rfl⟩

end Bare

/-- What an entry of a table holds: a plain value under its name. -/
def Holds (p : String × Plain) (e : Key × Node) : Prop :=
  e.1.name = p.1 ∧ ∃ span, e.2 = .leaf p.2.scalar span

def pairChars (p : String × Plain) : List Char :=
  p.1.toList ++ ' ' :: '=' :: ' ' :: p.2.chars ++ ['\n']

theorem pairLine_eq (name : String) (v : Plain) :
    pairLine name (String.ofList v.chars) = String.ofList (pairChars (name, v)) := by
  rw [← String.toList_inj]
  simp [pairLine, pairChars]

/-- A line that is left out when there is nothing to set. -/
theorem optionalLine_eq {α : Type} (name : String) (f : α → String) (o : Option α) :
    (o.map fun a => pairLine name (quote (f a))).getD "" =
      String.ofList ((o.map fun a => (name, Plain.string (f a))).toList.flatMap pairChars) := by
  cases o with
  | none => rfl
  | some a =>
    change pairLine name (String.ofList (Plain.string (f a)).chars) = _
    rw [pairLine_eq]
    simp

theorem line_pair {p : String × Plain} (hk : Bare p.1) (hv : p.2.Fits) (rest : List Char) :
    ∃ e, line (pairChars p ++ rest) = some (some (.pair [] e.1 e.2), rest) ∧ Holds p e := by
  obtain ⟨span, hread⟩ := Plain.anyValue_chars hv rest
  obtain ⟨kspan, hkey⟩ : ∃ span,
      key (p.1.toList ++ ' ' :: '=' :: ' ' :: (p.2.chars ++ '\n' :: rest)) =
        some (([], ⟨p.1, span⟩), '=' :: ' ' :: (p.2.chars ++ '\n' :: rest)) :=
    hk.key (by decide) (by simp [skipBlanks, isBlank])
  have hblank : skipBlanks (' ' :: (p.2.chars ++ '\n' :: rest)) = p.2.chars ++ '\n' :: rest :=
    p.2.skipBlanks_chars _
  have hend : endLine? ('\n' :: rest) = some rest := rfl
  refine ⟨(⟨p.1, kspan⟩, .leaf p.2.scalar span), ?_, rfl, span, rfl⟩
  simp only [pairChars, List.append_assoc, List.cons_append, List.nil_append]
  rw [line]
  · rw [hkey]
    simp only [Option.bind_eq_bind, Option.bind_some, hblank, hread, hend]
    rfl
  · exact hk.ne_cons (by decide) _
  · exact hk.ne_cons (by decide) _
  · exact hk.ne_cons (by decide) _
  · exact fun t => hk.ne_cons (by decide) _ _
  · exact hk.ne_cons (by decide) _

theorem line_header {name : String} (h : Bare name) (rest : List Char) :
    ∃ k span, line ('[' :: (name.toList ++ ']' :: '\n' :: rest)) =
      some (some (.header [] k span), rest) ∧ k.name = name := by
  obtain ⟨kspan, hkey⟩ : ∃ span, key (name.toList ++ ']' :: '\n' :: rest) =
      some (([], ⟨name, span⟩), ']' :: '\n' :: rest) :=
    h.key (by decide) (by simp [skipBlanks, isBlank])
  have hend : endLine? ('\n' :: rest) = some rest := rfl
  refine ⟨⟨name, kspan⟩,
    .between ('[' :: (name.toList ++ ']' :: '\n' :: rest)) ('\n' :: rest), ?_, rfl⟩
  rw [line]
  · rw [hkey]
    simp only [Option.bind_eq_bind, Option.bind_some, hend]
    rfl
  · exact fun t => h.ne_cons (by decide) _ _

/-- The lines of a text, given fuel for each of its characters. -/
def Lines (cs : List Char) (ls : List Line) : Prop :=
  ∀ fuel, cs.length ≤ fuel → lines fuel cs = some ls

theorem lines_nil : Lines [] [] := by
  intro fuel _
  cases fuel with
  | zero => rfl
  | succ fuel => rfl

theorem Lines.cons {cs rest : List Char} {l : Option Line} {ls : List Line}
    (hl : line cs = some (l, rest)) (hb : skipBlanks cs = cs) (hlen : rest.length < cs.length)
    (h : Lines rest ls) : Lines cs (l.toList ++ ls) := by
  intro fuel hf
  cases fuel with
  | zero => omega
  | succ fuel =>
    have hrest := h fuel (by omega)
    cases cs with
    | nil => simp at hlen
    | cons c cs =>
      rw [lines, hb]
      simp [hl, hrest]

/-- The lines of pairs, each given by its entry. -/
def linesOf (es : List (Key × Node)) : List Line := es.map fun e => .pair [] e.1 e.2

/-- Pairs that can be written. -/
def Writable (ps : List (String × Plain)) : Prop := ∀ p ∈ ps, Bare p.1 ∧ p.2.Fits

theorem Lines.pairs {ps : List (String × Plain)} (hps : Writable ps) {rest : List Char}
    {ls : List Line} (h : Lines rest ls) :
    ∃ es, List.Forall₂ Holds ps es ∧
      Lines (ps.flatMap pairChars ++ rest) (linesOf es ++ ls) := by
  induction ps with
  | nil => exact ⟨[], .nil, h⟩
  | cons p ps ih =>
    obtain ⟨⟨hk, hv⟩, hps⟩ := List.forall_mem_cons.mp hps
    obtain ⟨es, hes, hlines⟩ := ih hps
    obtain ⟨e, hline, he⟩ := line_pair hk hv (ps.flatMap pairChars ++ rest)
    refine ⟨e :: es, .cons he hes, ?_⟩
    rw [List.flatMap_cons, List.append_assoc]
    refine Lines.cons hline ?_ ?_ hlines
    · rw [pairChars, List.append_assoc, List.append_assoc]
      exact hk.skipBlanks _
    · simp [pairChars]
      omega

end HeapPressure.Toml
