import HeapPressure.Proofs.Json.Numbers
import HeapPressure.Proofs.Json.Strings

/-!
A text that spells a tree is read as the tree.
-/
namespace HeapPressure.Json

variable {p : Part} {t : Tree} {ts : List Tree} {ms : List (String × Tree)} {n : Number}
  {first : Bool} {c : Char} {bs b₁ b₂ cs w sep rest : List Char}

theorem skipBlanks_cons (hb : Blank bs) (hc : isBlank c = false) :
    skipBlanks (bs ++ c :: cs) = c :: cs := by
  induction bs with
  | nil => simp [skipBlanks, hc]
  | cons b bs ih =>
    have hb' : isBlank b = true := hb b (by simp)
    simp only [List.cons_append, skipBlanks, hb', if_true]
    exact ih fun c hc => hb c (List.mem_cons_of_mem b hc)

theorem skipBlanks_blank (hb : Blank bs) : skipBlanks bs = [] := by
  induction bs with
  | nil => rfl
  | cons b bs ih =>
    have hb' : isBlank b = true := hb b (by simp)
    simp only [skipBlanks, hb', if_true]
    exact ih fun c hc => hb c (List.mem_cons_of_mem b hc)

theorem Blank.nil : Blank [] := by simp [Blank]

theorem exists_blank (cs : List Char) : ∃ bs, Blank bs ∧ cs = bs ++ skipBlanks cs := by
  induction cs with
  | nil => exact ⟨[], .nil, rfl⟩
  | cons c cs ih =>
    obtain ⟨bs, hbs, hcs⟩ := ih
    rw [skipBlanks]
    split
    · next hc => exact ⟨c :: bs, List.forall_mem_cons.mpr ⟨hc, hbs⟩, congrArg (c :: ·) hcs⟩
    · exact ⟨[], .nil, rfl⟩

/-- The first character of a part: never a blank, no bracket that closes an array in front of its
items, and none that could belong to a number in front of what stands behind others. -/
def Opens : Part → Char → Prop
  | .tree _, c => isBlank c = false ∧ c ≠ ']'
  | .items true _, c => isBlank c = false
  | .members true _, c => isBlank c = false
  | .items false _, c => c = ']' ∨ c = ','
  | .members false _, c => c = '\x7d' ∨ c = ','

theorem WritesUnsigned.opens (h : WritesUnsigned n w) : ∃ d ds, w = d :: ds ∧ isDigit d = true := by
  cases h with
  | mk h =>
    obtain ⟨d, ds, rfl⟩ := List.exists_cons_of_ne_nil h.ne_nil
    exact ⟨d, _, rfl, h.digit d List.mem_cons_self⟩

theorem opens_digit (hc : isDigit c = true) : Opens (.tree t) c := by
  have hne : isBlank c = false ∧ c ≠ ']' := by
    simp only [isBlank, Bool.or_eq_false_iff, beq_eq_false_iff_ne]
    refine ⟨⟨⟨⟨?_, ?_⟩, ?_⟩, ?_⟩, ?_⟩ <;> (rintro rfl; revert hc; decide)
  exact hne

theorem Writes.opens (h : Writes p cs) : ∃ c t, cs = c :: t ∧ Opens p c := by
  induction h with
  | null | truth | falsehood => exact ⟨_, _, rfl, rfl, by decide⟩
  | @number n w h =>
    obtain ⟨d, ds, rfl, hd⟩ := h.opens
    cases hn : n.negative with
    | false => exact ⟨d, ds, rfl, opens_digit hd⟩
    | true => exact ⟨'-', d :: ds, rfl, rfl, by decide⟩
  | string | array | object => exact ⟨_, _, rfl, rfl, by decide⟩
  | endItems first => exact ⟨_, _, rfl, by cases first <;> first | exact .inl rfl | rfl⟩
  | @item first _ _ _ _ _ _ hs _ _ _ ihv =>
    cases first with
    | true =>
      obtain rfl := hs
      obtain ⟨c, v, rfl, hc⟩ := ihv
      exact ⟨c, _, rfl, hc.1⟩
    | false =>
      obtain ⟨bs, -, rfl⟩ := hs
      exact ⟨_, _, rfl, .inr rfl⟩
  | endMembers first => exact ⟨_, _, rfl, by cases first <;> first | exact .inl rfl | rfl⟩
  | @member first _ _ _ _ _ _ _ _ _ _ hs =>
    cases first with
    | true =>
      obtain rfl := hs
      exact ⟨_, _, rfl, rfl⟩
    | false =>
      obtain ⟨bs, -, rfl⟩ := hs
      exact ⟨_, _, rfl, .inr rfl⟩

theorem Opens.not_isBlank (h : Opens p c) : isBlank c = false := by
  cases p with
  | tree t => exact h.1
  | items first ts =>
    cases first with
    | true => exact h
    | false => rcases h with rfl | rfl <;> rfl
  | members first ms =>
    cases first with
    | true => exact h
    | false => rcases h with rfl | rfl <;> rfl

theorem skipBlanks_writes (hb : Blank bs) (h : Writes p cs) :
    skipBlanks (bs ++ (cs ++ rest)) = cs ++ rest := by
  obtain ⟨c, t, rfl, hc⟩ := h.opens
  exact skipBlanks_cons hb hc.not_isBlank

theorem Blank.endsNumber (hb : Blank bs) (h : EndsNumber rest) : EndsNumber (bs ++ rest) := by
  cases bs with
  | nil => exact h
  | cons b bs =>
    intro c hc
    cases hc
    have hc' : isBlank b = true := hb b (by simp)
    simp only [isBlank, Bool.or_eq_true, beq_iff_eq] at hc'
    rcases hc' with ((rfl | rfl) | rfl) | rfl <;> decide

theorem Writes.items_endsNumber (h : Writes (.items false ts) cs) : EndsNumber (cs ++ rest) := by
  obtain ⟨d, t, rfl, hd⟩ := h.opens
  intro c hc
  cases hc
  rcases hd with rfl | rfl <;> decide

theorem Writes.members_endsNumber (h : Writes (.members false ms) cs) :
    EndsNumber (cs ++ rest) := by
  obtain ⟨d, t, rfl, hd⟩ := h.opens
  intro c hc
  cases hc
  rcases hd with rfl | rfl <;> decide

theorem readValue_digit (hc : isDigit c = true) (fuel : Nat) (cs : List Char) :
    readValue (fuel + 1) (c :: cs) = scalar .number (scanNumber false (c :: cs)) := by
  rw [readValue]
  · rw [if_pos hc]
  all_goals
    rintro rfl
    revert hc
    decide

theorem readValue_number (h : WritesUnsigned n w) (fuel : Nat) (hr : EndsNumber rest) :
    readValue (fuel + 1) (signChars n.negative ++ w ++ rest) = (.number n, rest) := by
  have hscan := h.scanNumber hr
  obtain ⟨d, ds, rfl, hd⟩ := h.opens
  cases hn : n.negative with
  | false =>
    rw [hn] at hscan
    change readValue (fuel + 1) (d :: (ds ++ rest)) = _
    rw [readValue_digit hd, ← List.cons_append, hscan]
    rfl
  | true =>
    rw [hn] at hscan
    change readValue (fuel + 1) ('-' :: (d :: ds ++ rest)) = _
    rw [readValue, hscan]
    rfl

theorem readValue_string {s : String} (h : WritesChars s.toList w) (fuel : Nat) :
    readValue (fuel + 1) ('\"' :: (w ++ ['\"']) ++ rest) = (.string (some s), rest) := by
  obtain ⟨ps, hscan, hs⟩ := scanString_iff.mpr ⟨w, rfl, h⟩
  rw [List.cons_append, List.append_assoc, List.singleton_append, readValue, hscan, scalar, hs]

/-- One item and those behind it. -/
theorem readItems_item (hs : Separates first sep) (hc : Opens (.tree t) c) (fuel : Nat) :
    readItems (fuel + 1) first (sep ++ c :: w) =
      let r := readValue fuel (c :: w)
      let m := readItems fuel false (skipBlanks r.2)
      (.cons r.1 m.1, m.2) := by
  cases first with
  | true =>
    obtain rfl : sep = [] := hs
    rw [List.nil_append, readItems]
    · rfl
    · exact hc.2
  | false =>
    obtain ⟨bs, hbs, rfl⟩ := hs
    have hskip : skipBlanks (bs ++ c :: w) = c :: w := skipBlanks_cons hbs hc.1
    rw [List.cons_append, readItems]
    · simp only [Bool.false_eq_true, if_false, beq_self_eq_true, if_true, hskip]
      split
      · next heq => cases heq
      · next heq => exact absurd (List.cons.inj heq).1 hc.2
      · rfl
    · decide

/-- The member at the front of a text. -/
def readMember (fuel : Nat) : List Char → Members × List Char
  | '\"' :: cs =>
    match scanString cs with
    | none => (.torn, [])
    | some (key, rest) =>
      match skipBlanks rest with
      | ':' :: rest =>
        let (v, rest) := readValue fuel (skipBlanks rest)
        let (members, rest) := readMembers fuel false (skipBlanks rest)
        (.cons (textOfPieces key) v members, rest)
      | _ => (.cons (textOfPieces key) .absent .torn, [])
  | _ => (.torn, [])

theorem readMembers_cons (fuel : Nat) (first : Bool) (hc : c ≠ '\x7d') :
    readMembers (fuel + 1) first (c :: cs) =
      if first then readMember fuel (c :: cs)
      else if c == ',' then readMember fuel (skipBlanks cs)
      else (.torn, []) := by
  rw [readMembers]
  · rfl
  · exact hc

/-- One member: its key, its value, and the members behind it. -/
theorem readMembers_member {key : String} {k : List Char} (hs : Separates first sep)
    (hk : WritesChars key.toList k) (h₁ : Blank b₁) (fuel : Nat) (w : List Char) :
    readMembers (fuel + 1) first (sep ++ ('\"' :: (k ++ '\"' :: (b₁ ++ ':' :: w)))) =
      let r := readValue fuel (skipBlanks w)
      let m := readMembers fuel false (skipBlanks r.2)
      (.cons (some key) r.1 m.1, m.2) := by
  have hb : skipBlanks (b₁ ++ ':' :: w) = ':' :: w := skipBlanks_cons h₁ (by decide)
  obtain ⟨ps, hscan, hkey⟩ :=
    scanString_iff.mpr ⟨k, Eq.refl (k ++ '\"' :: (b₁ ++ ':' :: w)), hk⟩
  cases first with
  | true =>
    obtain rfl : sep = [] := hs
    rw [List.nil_append, readMembers_cons _ _ (by decide), if_pos rfl, readMember]
    simp only [hscan, hb, hkey]
  | false =>
    obtain ⟨bs, hbs, rfl⟩ := hs
    have hskip (v : List Char) : skipBlanks (bs ++ '\"' :: v) = '\"' :: v :=
      skipBlanks_cons hbs (by decide)
    rw [List.cons_append, readMembers_cons _ _ (by decide), if_neg (by decide),
      if_pos (by decide), hskip, readMember]
    simp only [hscan, hb, hkey]

/-- What a reader makes of a part that is written `cs`, given as much fuel as `cs` is long. -/
def ReadsAs : Part → List Char → Prop
  | .tree t, cs => ∀ fuel rest, cs.length ≤ fuel → EndsNumber rest →
      readValue fuel (cs ++ rest) = (t.value, rest)
  | .items first ts, cs => ∀ fuel rest, cs.length ≤ fuel →
      readItems fuel first (cs ++ rest) = (Tree.itemsOf ts, rest)
  | .members first ms, cs => ∀ fuel rest, cs.length ≤ fuel →
      readMembers fuel first (cs ++ rest) = (Tree.membersOf ms, rest)

theorem Writes.length_pos (h : Writes p cs) : 0 < cs.length := by
  obtain ⟨c, t, rfl, -⟩ := h.opens
  exact Nat.succ_pos _

theorem Writes.readsAs (h : Writes p cs) : ReadsAs p cs := by
  induction h with
  | null | truth | falsehood =>
    intro fuel rest hf _
    obtain ⟨fuel, rfl⟩ := Nat.exists_eq_add_one_of_ne_zero (Nat.ne_zero_of_lt hf)
    rfl
  | number h =>
    intro fuel rest hf hr
    have hpos := (Writes.number h).length_pos
    obtain ⟨fuel, rfl⟩ := Nat.exists_eq_add_one_of_ne_zero (by omega : fuel ≠ 0)
    exact readValue_number h fuel hr
  | string h =>
    intro fuel rest hf _
    obtain ⟨fuel, rfl⟩ := Nat.exists_eq_add_one_of_ne_zero (Nat.ne_zero_of_lt hf)
    exact readValue_string h fuel
  | array hb h ih | object hb h ih =>
    intro fuel rest hf _
    obtain ⟨fuel, rfl⟩ := Nat.exists_eq_add_one_of_ne_zero (Nat.ne_zero_of_lt hf)
    simp only [List.length_cons, List.length_append] at hf
    rw [List.cons_append, List.append_assoc, readValue, skipBlanks_writes hb h,
      ih fuel rest (by omega)]
    rfl
  | endItems first | endMembers first =>
    intro fuel rest hf
    obtain ⟨fuel, rfl⟩ := Nat.exists_eq_add_one_of_ne_zero (Nat.ne_zero_of_lt hf)
    rfl
  | @item first t ts sep v b cs hs hv hb h ihv ih =>
    intro fuel rest hf
    have hvpos := hv.length_pos
    have hpos := h.length_pos
    simp only [List.length_append] at hf
    obtain ⟨fuel, rfl⟩ := Nat.exists_eq_add_one_of_ne_zero (by omega : fuel ≠ 0)
    have hread := ihv fuel (b ++ (cs ++ rest)) (by omega) (hb.endsNumber h.items_endsNumber)
    obtain ⟨c, v, rfl, hc⟩ := hv.opens
    rw [List.append_assoc, List.append_assoc, List.append_assoc, List.cons_append,
      readItems_item hs hc]
    rw [List.cons_append] at hread
    simp only [hread, skipBlanks_writes hb h, ih fuel rest (by omega)]
    rfl
  | @member first key t ms sep k b₁ b₂ b₃ v cs hs hk h₁ h₂ h₃ hv h ihv ih =>
    intro fuel rest hf
    have hlen : v.length + cs.length + 1 ≤ fuel := by
      simp only [List.length_append, List.length_cons] at hf
      omega
    obtain ⟨fuel, rfl⟩ := Nat.exists_eq_add_one_of_ne_zero (Nat.ne_zero_of_lt hlen)
    have ht : sep ++ ('\"' :: (k ++ '\"' :: (b₁ ++ ':' :: (b₂ ++ (v ++ (b₃ ++ cs)))))) ++ rest =
        sep ++ ('\"' :: (k ++ '\"' :: (b₁ ++ ':' :: (b₂ ++ (v ++ (b₃ ++ (cs ++ rest))))))) := by
      simp
    rw [ht, readMembers_member hs hk h₁]
    simp only [skipBlanks_writes h₂ hv, ihv fuel _ (by omega) (h₃.endsNumber h.members_endsNumber),
      skipBlanks_writes h₃ h, ih fuel rest (by omega)]
    rfl

/-- A text that writes a tree, with blanks around it, is read as the tree. -/
theorem Writes.read (h₁ : Blank b₁) (h₂ : Blank b₂) (h : Writes (.tree t) w) :
    read (String.ofList (b₁ ++ (w ++ b₂))) = ⟨t.value, false⟩ := by
  have hr : EndsNumber b₂ := by
    have hnil : EndsNumber [] := by simp [EndsNumber]
    simpa using h₂.endsNumber hnil
  have hread := h.readsAs (2 * (w ++ b₂).length + 2) b₂ (by simp; omega) hr
  rw [Json.read, String.toList_ofList, skipBlanks_writes h₁ h, hread]
  simp only [skipBlanks_blank h₂]
  rfl

theorem Spells.read {text : String} (h : Spells t text) : read text = ⟨t.value, false⟩ := by
  obtain ⟨b₁, b₂, w, h₁, h₂, hw, htext⟩ := h
  rw [← String.ofList_toList (s := text), htext]
  exact hw.read h₁ h₂

end HeapPressure.Json
