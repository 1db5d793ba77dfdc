import HeapPressure.Json.Writer
import HeapPressure.Proofs.Json.Reading

/-!
Documents: the compact and the indented text spell the same tree, and the compact one stays on its
line.
-/
namespace HeapPressure.Json

open HeapPressure.Text (hexValue? hexValue?_digitChar isDigit_of_mem_toDigits)

mutual

/-- What a reader makes of a document. -/
def Document.value : Document → Value
  | .null => .null
  | .integer n => .number (.ofInt n)
  | .string s => .string (some s)
  | .object ms => .object (membersOf ms)

def membersOf : List (String × Document) → Members
  | [] => .close
  | (key, d) :: ms => .cons (some key) d.value (membersOf ms)

end

mutual

def Document.tree : Document → Tree
  | .null => .null
  | .integer n => .number (.ofInt n)
  | .string s => .string s
  | .object ms => .object (treesOf ms)

def treesOf : List (String × Document) → List (String × Tree)
  | [] => []
  | (key, d) :: ms => (key, d.tree) :: treesOf ms

end

mutual

theorem Document.value_tree : (d : Document) → d.tree.value = d.value
  | .null | .integer _ | .string _ => rfl
  | .object ms => congrArg Value.object (membersOf_treesOf ms)

theorem membersOf_treesOf : (ms : List (String × Document)) →
    Tree.membersOf (treesOf ms) = membersOf ms
  | [] => rfl
  | (key, d) :: ms => by
    rw [treesOf, Tree.membersOf, d.value_tree, membersOf_treesOf ms, membersOf]

end

theorem hexUnit?_digitChar {n : Nat} (h : n < 0x20) :
    hexUnit? '0' '0' (Nat.digitChar (n / 16)) (Nat.digitChar (n % 16)) = some n := by
  have hz : hexValue? '0' = some 0 := by decide
  rw [hexUnit?, hz, hexValue?_digitChar (by omega), hexValue?_digitChar (by omega)]
  simp only [Option.some.injEq]
  omega

theorem writesChar_escapeChar (c : Char) : WritesChar c (escapeChar c) := by
  unfold escapeChar
  split
  · next h => subst h; exact .letter rfl
  split
  · next h => subst h; exact .letter rfl
  split
  · next h => subst h; exact .letter rfl
  split
  · next h => subst h; exact .letter rfl
  split
  · next h => subst h; exact .letter rfl
  split
  · next h => subst h; exact .letter rfl
  split
  · next h => subst h; exact .letter rfl
  split
  · next h =>
    have hu : isSurrogate c.toNat = false := by
      simp only [isSurrogate, Bool.and_eq_false_iff, decide_eq_false_iff_not]
      omega
    have hw := WritesChar.unit (hexUnit?_digitChar h) hu
    rwa [Char.ofNat_toNat] at hw
  · next hq hb _ _ _ _ _ hc => exact .plain hq hb (by omega)

theorem writesChars_escaped (s : List Char) : WritesChars s (s.flatMap escapeChar) := by
  induction s with
  | nil => exact .nil
  | cons c s ih => exact .cons (writesChar_escapeChar c) ih

theorem writes_quote (s : String) : Writes (.tree (.string s)) (quote s) :=
  .string (writesChars_escaped s.toList)

theorem writes_integerText (n : Int) : Writes (.tree (.number (.ofInt n))) (integerText n) := by
  cases n with
  | ofNat k => exact .number (writesUnsigned_toDigits false k)
  | negSucc k => exact .number (writesUnsigned_toDigits true (k + 1))

theorem Writes.quoted {first : Bool} {t : Tree} {ms : List (String × Tree)}
    {sep b₁ b₂ b₃ v cs : List Char} (key : String) (hs : Separates first sep) (h₁ : Blank b₁)
    (h₂ : Blank b₂) (h₃ : Blank b₃) (hv : Writes (.tree t) v) (h : Writes (.members false ms) cs) :
    Writes (.members first ((key, t) :: ms))
      (sep ++ (quote key ++ (b₁ ++ ':' :: (b₂ ++ (v ++ (b₃ ++ cs)))))) := by
  have hm := Writes.member hs (writesChars_escaped key.toList) h₁ h₂ h₃ hv h
  simpa [quote] using hm

theorem blank_space : Blank [' '] := by simp [Blank, isBlank]

theorem blank_indent (depth : Nat) : Blank (Document.indent depth) := by
  intro c hc
  rcases List.mem_cons.mp hc with rfl | hc
  · decide
  · rw [List.eq_of_mem_replicate hc]
    decide

theorem separates_comma (first : Bool) : Separates first (if first then [] else [',']) := by
  cases first with
  | true => rfl
  | false => exact ⟨[], .nil, rfl⟩

mutual

theorem writes_compactChars : (d : Document) → Writes (.tree d.tree) d.compactChars
  | .null => .null
  | .integer n => writes_integerText n
  | .string s => writes_quote s
  | .object ms => by
    have h := Writes.object .nil (writes_membersChars true ms)
    simpa [Document.compactChars, Document.tree] using h

theorem writes_membersChars : (first : Bool) → (ms : List (String × Document)) →
    Writes (.members first (treesOf ms)) (Document.membersChars first ms ++ ['\x7d'])
  | first, [] => .endMembers first
  | first, (key, d) :: ms => by
    have h := Writes.quoted key (separates_comma first) .nil .nil .nil (writes_compactChars d)
      (writes_membersChars false ms)
    simpa [Document.membersChars, treesOf] using h

end

mutual

theorem writes_prettyChars : (depth : Nat) → (d : Document) →
    Writes (.tree d.tree) (d.prettyChars depth)
  | _, .null => .null
  | _, .integer n => writes_integerText n
  | _, .string s => writes_quote s
  | _, .object [] => .object .nil (.endMembers true)
  | depth, .object ((key, d) :: ms) => by
    obtain ⟨b₃, cs, hcs, h₃, h⟩ := writes_prettyMembers (depth + 1) ms (blank_indent depth)
    have hm := Writes.quoted key (separates_comma true) .nil blank_space h₃
      (writes_prettyChars (depth + 1) d) h
    have ho := Writes.object (blank_indent (depth + 1)) hm
    rw [← hcs] at ho
    simpa [Document.prettyChars, Document.prettyMembers, Document.tree, treesOf] using ho

/-- The members behind others: the blanks in front of what follows stand apart. -/
theorem writes_prettyMembers : (depth : Nat) → (ms : List (String × Document)) →
    {bs : List Char} → Blank bs →
    ∃ b₃ cs, Document.prettyMembers depth false ms ++ (bs ++ ['\x7d']) = b₃ ++ cs ∧ Blank b₃ ∧
      Writes (.members false (treesOf ms)) cs
  | _, [], bs, hb => ⟨bs, _, rfl, hb, .endMembers false⟩
  | depth, (key, d) :: ms, bs, hb => by
    obtain ⟨b₃, cs, hcs, h₃, h⟩ := writes_prettyMembers depth ms hb
    have hs : Separates false (',' :: Document.indent depth) := ⟨_, blank_indent depth, rfl⟩
    have hm := Writes.quoted key hs .nil blank_space h₃ (writes_prettyChars depth d) h
    rw [← hcs] at hm
    exact ⟨[], _, by simp [Document.prettyMembers], .nil, hm⟩

end

theorem read_compact (d : Document) : read d.compact = ⟨d.value, false⟩ := by
  rw [Document.compact, ← d.value_tree]
  simpa using (writes_compactChars d).read .nil .nil

theorem read_pretty (d : Document) : read d.pretty = ⟨d.value, false⟩ := by
  rw [Document.pretty, ← d.value_tree]
  simpa using (writes_prettyChars 0 d).read .nil .nil

/-- No control characters. -/
def Printable (cs : List Char) : Prop := ∀ c ∈ cs, 0x20 ≤ c.toNat

theorem printable_of_all {cs : List Char} (h : cs.all (fun c => 0x20 ≤ c.toNat) = true) :
    Printable cs := by
  simpa [Printable] using h

theorem printable_append {cs ds : List Char} :
    Printable (cs ++ ds) ↔ Printable cs ∧ Printable ds := List.forall_mem_append

theorem printable_cons {c : Char} {cs : List Char} :
    Printable (c :: cs) ↔ 0x20 ≤ c.toNat ∧ Printable cs := List.forall_mem_cons

theorem printable_nil : Printable [] := by simp [Printable]

theorem digitChar_toNat_ge {n : Nat} (h : n < 16) : 0x20 ≤ n.digitChar.toNat := by
  revert n
  decide

theorem printable_escapeChar (c : Char) : Printable (escapeChar c) := by
  unfold escapeChar
  -- the escapes are closed texts, the digits of a control character and `c` itself are not
  repeat' split
  any_goals
    apply printable_of_all
    decide
  · next h =>
    have h₁ := digitChar_toNat_ge (n := c.toNat / 16) (by omega)
    have h₂ := digitChar_toNat_ge (n := c.toNat % 16) (by omega)
    simp [Printable, h₁, h₂]
  · next h => simpa [Printable] using h

theorem printable_quote (s : String) : Printable (quote s) := by
  have hs : Printable (s.toList.flatMap escapeChar) := by
    intro x hx
    obtain ⟨c, -, hc⟩ := List.mem_flatMap.mp hx
    exact printable_escapeChar c x hc
  simp only [quote, printable_cons, printable_append]
  exact ⟨⟨by decide, hs⟩, by decide, printable_nil⟩

theorem printable_toDigits (n : Nat) : Printable (Nat.toDigits 10 n) := by
  intro c hc
  have h := isDigit_of_mem_toDigits hc
  simp only [Char.isDigit, Bool.and_eq_true, decide_eq_true_eq] at h
  have h48 : '0'.toNat ≤ c.toNat := h.1
  exact Nat.le_trans (by decide) h48

theorem printable_integerText (n : Int) : Printable (integerText n) := by
  cases n with
  | ofNat k => exact printable_toDigits k
  | negSucc k => exact printable_cons.mpr ⟨by decide, printable_toDigits (k + 1)⟩

mutual

theorem printable_compactChars : (d : Document) → Printable d.compactChars
  | .null => by simp [Document.compactChars, Printable]
  | .integer n => printable_integerText n
  | .string s => printable_quote s
  | .object ms => by
    simp only [Document.compactChars, printable_append, printable_cons]
    exact ⟨⟨by decide, printable_membersChars true ms⟩, by decide, printable_nil⟩

theorem printable_membersChars : (first : Bool) → (ms : List (String × Document)) →
    Printable (Document.membersChars first ms)
  | _, [] => printable_nil
  | first, (key, d) :: ms => by
    simp only [Document.membersChars, printable_append, printable_cons]
    have hsep : Printable (if first then [] else [',']) := by cases first <;> simp [Printable]
    exact ⟨⟨⟨hsep, printable_quote key⟩, by decide, printable_compactChars d⟩,
      printable_membersChars false ms⟩

end

theorem printable_compact (d : Document) : ∀ c ∈ d.compact.toList, 0x20 ≤ c.toNat := by
  rw [Document.compact, String.toList_ofList]
  exact printable_compactChars d

end HeapPressure.Json
