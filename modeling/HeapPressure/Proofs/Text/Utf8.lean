import HeapPressure.Text.Utf8

/-!
The decoder of UTF-8 against the standard encoding of characters: after some bytes it has a
character exactly when these are the bytes of the character, and owes more exactly when they are
a proper part at the front of some character's bytes.
-/

namespace HeapPressure.Text.Utf8

theorem encodeChar_eq_utf8EncodeChar (c : Char) : encodeChar c = String.utf8EncodeChar c := by
  have hc : c.toNat < 0x110000 := by
    rcases c.valid with h | h
    · exact Nat.lt_trans h (by decide)
    · exact h.2
  simp only [encodeChar, String.utf8EncodeChar, ← Char.toNat_val, ← Nat.lt_succ_iff]
  simp only [Char.toNat_val] at *
  split
  · rfl
  split
  · have h : c.toNat / 64 % 32 = c.toNat / 64 := by omega
    simp only [h, Nat.add_comm]
  split
  · have h : c.toNat / 4096 % 16 = c.toNat / 4096 := by omega
    simp only [h, Nat.add_comm]
  · have h : c.toNat / 262144 % 8 = c.toNat / 262144 := by omega
    simp only [h, Nat.add_comm]

/-- The next byte after a lead. -/
def Lead.push : Lead → UInt8 → Lead
  | .begins o, b =>
    if o.admits b then
      match o.push b with
      | .inl c => .whole c
      | .inr o' => .begins o'
    else .stray
  | _, _ => .stray

def Lead.after (l : Lead) (bs : List UInt8) : Lead := bs.foldl Lead.push l

/-- What each byte means where a character begins. -/
inductive Leads (b : UInt8) : Lead → Prop where
  | whole (h : b.toNat < 0x80) : Leads b (.whole (Char.ofNat b.toNat))
  | two (h : 0xC2 ≤ b.toNat ∧ b.toNat < 0xE0) : Leads b (.begins ⟨0, 0x80, 0xBF, b.toNat - 0xC0⟩)
  | three {low high : UInt8} (h : 0xE0 ≤ b.toNat ∧ b.toNat < 0xF0)
      (hlow : b.toNat = 0xE0 ∧ low.toNat = 0xA0 ∨ b.toNat ≠ 0xE0 ∧ low.toNat = 0x80)
      (hhigh : b.toNat = 0xED ∧ high.toNat = 0x9F ∨ b.toNat ≠ 0xED ∧ high.toNat = 0xBF) :
      Leads b (.begins ⟨1, low, high, b.toNat - 0xE0⟩)
  | four {low high : UInt8} (h : 0xF0 ≤ b.toNat ∧ b.toNat < 0xF5)
      (hlow : b.toNat = 0xF0 ∧ low.toNat = 0x90 ∨ b.toNat ≠ 0xF0 ∧ low.toNat = 0x80)
      (hhigh : b.toNat = 0xF4 ∧ high.toNat = 0x8F ∨ b.toNat ≠ 0xF4 ∧ high.toNat = 0xBF) :
      Leads b (.begins ⟨2, low, high, b.toNat - 0xF0⟩)
  | stray (h : 0x80 ≤ b.toNat ∧ b.toNat < 0xC2 ∨ 0xF5 ≤ b.toNat) : Leads b .stray

variable {b low high : UInt8} {bs : List UInt8} {more code n : Nat} {c d : Char} {o : Owed}

theorem Owed.admits_iff :
    o.admits b = true ↔ o.low.toNat ≤ b.toNat ∧ b.toNat ≤ o.high.toNat := by
  simp [Owed.admits, UInt8.le_iff_toNat_le]

theorem after_append (l : Lead) (bs cs : List UInt8) :
    l.after (bs ++ cs) = (l.after bs).after cs := List.foldl_append

theorem after_stray : Lead.stray.after bs = .stray := by
  induction bs with
  | nil => rfl
  | cons b bs ih => exact ih

theorem after_whole_cons : (Lead.whole c).after (b :: bs) = .stray := after_stray

theorem after_whole_iff : (Lead.whole c).after bs = .whole d ↔ bs = [] ∧ c = d := by
  cases bs with
  | nil => simp [Lead.after]
  | cons b bs => simp [after_whole_cons]

theorem after_last_iff : (Lead.begins ⟨0, low, high, code⟩).after (b :: bs) = .whole c ↔
    (low.toNat ≤ b.toNat ∧ b.toNat ≤ high.toNat) ∧
      bs = [] ∧ Char.ofNat (code * 64 + (b.toNat - 0x80)) = c := by
  change (Lead.push _ b).after bs = _ ↔ _
  simp only [Lead.push, Owed.admits_iff]
  split
  · next h => simp only [Owed.push, after_whole_iff, h, true_and]
  · next h => simp only [after_stray, h, false_and, reduceCtorEq]

theorem after_more_iff :
    (Lead.begins ⟨more + 1, low, high, code⟩).after (b :: bs) = .whole c ↔
      (low.toNat ≤ b.toNat ∧ b.toNat ≤ high.toNat) ∧
        (Lead.begins ⟨more, 0x80, 0xBF, code * 64 + (b.toNat - 0x80)⟩).after bs = .whole c := by
  change (Lead.push _ b).after bs = _ ↔ _
  simp only [Lead.push, Owed.admits_iff]
  split
  · next h => simp only [Owed.push, h, true_and]
  · next h => simp only [after_stray, h, false_and, reduceCtorEq]

theorem toNat_lowest : (0x80 : UInt8).toNat = 0x80 := rfl

theorem toNat_highest : (0xBF : UInt8).toNat = 0xBF := rfl

theorem lowest_le_highest : (0x80 : UInt8).toNat ≤ (0xBF : UInt8).toNat := by decide

theorem after_begins_nil : (Lead.begins o).after [] ≠ .whole c := nofun

theorem leads_lead (b : UInt8) : Leads b (lead b) := by
  have hsplit (x y z : UInt8) : b.toNat = x.toNat ∧ (if b = x then y else z).toNat = y.toNat ∨
      b.toNat ≠ x.toNat ∧ (if b = x then y else z).toNat = z.toNat := by
    rw [ne_eq, UInt8.toNat_inj]
    by_cases h : b = x <;> simp [h]
  unfold lead
  simp only [UInt8.lt_iff_toNat_lt]
  split
  · next h => exact .whole h
  split
  · next h0 h => exact .stray (.inl ⟨Nat.not_lt.mp h0, h⟩)
  split
  · next h0 h => exact .two ⟨Nat.not_lt.mp h0, h⟩
  split
  · next h0 h => exact .three ⟨Nat.not_lt.mp h0, h⟩ (hsplit 0xE0 0xA0 0x80) (hsplit 0xED 0x9F 0xBF)
  split
  · next h0 h => exact .four ⟨Nat.not_lt.mp h0, h⟩ (hsplit 0xF0 0x90 0x80) (hsplit 0xF4 0x8F 0xBF)
  · next h => exact .stray (.inr (Nat.not_lt.mp h))

theorem toNat_toUInt8 (h : n < 256) : n.toUInt8.toNat = n := by
  rw [Nat.toUInt8, UInt8.toNat_ofNat', Nat.mod_eq_of_lt h]

theorem toUInt8_eq (h : n = b.toNat) : n.toUInt8 = b :=
  UInt8.toNat_inj.mp ((toNat_toUInt8 (h ▸ b.toNat_lt)).trans h)

theorem toNat_ofNat (h : n < 0xD800 ∨ 0xDFFF < n ∧ n < 0x110000) : (Char.ofNat n).toNat = n := by
  have hn : n.isValidChar := h
  rw [Char.ofNat, dif_pos hn]
  rfl

/-- Bytes that the decoder reads as one character are the bytes of that character. -/
theorem encodeChar_of_after (h : (lead b).after bs = .whole c) : encodeChar c = b :: bs := by
  generalize hl : lead b = l at h
  cases hl ▸ leads_lead b with
  | whole hb =>
    obtain ⟨rfl, rfl⟩ := after_whole_iff.mp h
    have hn : (Char.ofNat b.toNat).toNat = b.toNat := toNat_ofNat (by omega)
    simp only [encodeChar, hn, if_pos hb, toUInt8_eq rfl]
  | two hb =>
    cases bs with
    | nil => cases after_begins_nil h
    | cons b₁ bs =>
      obtain ⟨h₁, rfl, rfl⟩ := after_last_iff.mp h
      simp only [toNat_lowest, toNat_highest] at h₁
      generalize hn : (b.toNat - 0xC0) * 64 + (b₁.toNat - 0x80) = n
      simp only [encodeChar, toNat_ofNat (n := n) (by omega)]
      rw [if_neg (by omega), if_pos (by omega), toUInt8_eq (b := b) (by omega),
        toUInt8_eq (b := b₁) (by omega)]
  | three hb hlow hhigh =>
    match bs with
    | [] => cases after_begins_nil h
    | [b₁] => cases after_begins_nil (after_more_iff.mp h).2
    | b₁ :: b₂ :: bs =>
      obtain ⟨h₁, h⟩ := after_more_iff.mp h
      obtain ⟨h₂, rfl, rfl⟩ := after_last_iff.mp h
      simp only [toNat_lowest, toNat_highest] at h₁ h₂
      generalize hn : ((b.toNat - 0xE0) * 64 + (b₁.toNat - 0x80)) * 64 + (b₂.toNat - 0x80) = n
      have hvalid : n < 0xD800 ∨ 0xDFFF < n ∧ n < 0x10000 := by omega
      simp only [encodeChar, toNat_ofNat (n := n) (by omega)]
      rw [if_neg (by omega), if_neg (by omega), if_pos (by omega), toUInt8_eq (b := b) (by omega),
        toUInt8_eq (b := b₁) (by omega), toUInt8_eq (b := b₂) (by omega)]
  | four hb hlow hhigh =>
    match bs with
    | [] => cases after_begins_nil h
    | [b₁] => cases after_begins_nil (after_more_iff.mp h).2
    | [b₁, b₂] => cases after_begins_nil (after_more_iff.mp (after_more_iff.mp h).2).2
    | b₁ :: b₂ :: b₃ :: bs =>
      obtain ⟨h₁, h⟩ := after_more_iff.mp h
      obtain ⟨h₂, h⟩ := after_more_iff.mp h
      obtain ⟨h₃, rfl, rfl⟩ := after_last_iff.mp h
      simp only [toNat_lowest, toNat_highest] at h₁ h₂ h₃
      generalize hn : (((b.toNat - 0xF0) * 64 + (b₁.toNat - 0x80)) * 64 + (b₂.toNat - 0x80)) * 64 +
        (b₃.toNat - 0x80) = n
      have hvalid : 0xFFFF < n ∧ n < 0x110000 := by omega
      simp only [encodeChar, toNat_ofNat (n := n) (by omega)]
      rw [if_neg (by omega), if_neg (by omega), if_neg (by omega), toUInt8_eq (b := b) (by omega),
        toUInt8_eq (b := b₁) (by omega), toUInt8_eq (b := b₂) (by omega),
        toUInt8_eq (b := b₃) (by omega)]
  | stray hb => cases after_stray.symm.trans h

theorem toNat_cases (c : Char) : c.toNat < 0xD800 ∨ 0xDFFF < c.toNat ∧ c.toNat < 0x110000 := c.valid

theorem exists_byte (h : n < 256) : ∃ b : UInt8, b.toNat = n := ⟨n.toUInt8, toNat_toUInt8 h⟩

/-- Every character is read from some bytes, which by the lemma before are its own. -/
theorem exists_after (c : Char) : ∃ b bs, (lead b).after bs = .whole c := by
  have hvalid := toNat_cases c
  have hc := Char.ofNat_toNat c
  generalize c.toNat = n at hvalid hc
  by_cases h₁ : n < 0x80
  · obtain ⟨b, hb⟩ := exists_byte (n := n) (by omega)
    refine ⟨b, [], ?_⟩
    generalize hl : lead b = l
    cases hl ▸ leads_lead b with
    | whole => exact after_whole_iff.mpr ⟨rfl, hb ▸ hc⟩
    | two | three | four | stray => omega
  by_cases h₂ : n < 0x800
  · obtain ⟨b, hb⟩ := exists_byte (n := 0xC0 + n / 64) (by omega)
    obtain ⟨b₁, hb₁⟩ := exists_byte (n := 0x80 + n % 64) (by omega)
    refine ⟨b, [b₁], ?_⟩
    generalize hl : lead b = l
    cases hl ▸ leads_lead b with
    | two =>
      have hcode : (b.toNat - 0xC0) * 64 + (b₁.toNat - 0x80) = n := by omega
      refine after_last_iff.mpr ⟨?_, rfl, hcode ▸ hc⟩
      rw [toNat_lowest, toNat_highest]
      omega
    | whole | three | four | stray => omega
  by_cases h₃ : n < 0x10000
  · obtain ⟨b, hb⟩ := exists_byte (n := 0xE0 + n / 4096) (by omega)
    obtain ⟨b₁, hb₁⟩ := exists_byte (n := 0x80 + n / 64 % 64) (by omega)
    obtain ⟨b₂, hb₂⟩ := exists_byte (n := 0x80 + n % 64) (by omega)
    refine ⟨b, [b₁, b₂], ?_⟩
    generalize hl : lead b = l
    cases hl ▸ leads_lead b with
    | three _ hlow hhigh =>
      have hcode : ((b.toNat - 0xE0) * 64 + (b₁.toNat - 0x80)) * 64 + (b₂.toNat - 0x80) = n := by
        omega
      refine after_more_iff.mpr ⟨by omega, after_last_iff.mpr ⟨?_, rfl, hcode ▸ hc⟩⟩
      rw [toNat_lowest, toNat_highest]
      omega
    | whole | two | four | stray => omega
  · obtain ⟨b, hb⟩ := exists_byte (n := 0xF0 + n / 262144) (by omega)
    obtain ⟨b₁, hb₁⟩ := exists_byte (n := 0x80 + n / 4096 % 64) (by omega)
    obtain ⟨b₂, hb₂⟩ := exists_byte (n := 0x80 + n / 64 % 64) (by omega)
    obtain ⟨b₃, hb₃⟩ := exists_byte (n := 0x80 + n % 64) (by omega)
    refine ⟨b, [b₁, b₂, b₃], ?_⟩
    generalize hl : lead b = l
    cases hl ▸ leads_lead b with
    | four _ hlow hhigh =>
      have hcode : (((b.toNat - 0xF0) * 64 + (b₁.toNat - 0x80)) * 64 + (b₂.toNat - 0x80)) * 64 +
          (b₃.toNat - 0x80) = n := by omega
      refine after_more_iff.mpr ⟨by omega,
        after_more_iff.mpr ⟨?_, after_last_iff.mpr ⟨?_, rfl, hcode ▸ hc⟩⟩⟩
      all_goals
        rw [toNat_lowest, toNat_highest]
        omega
    | whole | two | three | stray => omega

theorem after_eq_whole_iff :
    (lead b).after bs = .whole c ↔ String.utf8EncodeChar c = b :: bs := by
  rw [← encodeChar_eq_utf8EncodeChar]
  refine ⟨encodeChar_of_after, fun h => ?_⟩
  obtain ⟨b', bs', hafter⟩ := exists_after c
  cases h.symm.trans (encodeChar_of_after hafter)
  exact hafter

/-- What is owed can be given. -/
theorem exists_whole (o : Owed) (h : o.low.toNat ≤ o.high.toNat) :
    ∃ b bs c, (Lead.begins o).after (b :: bs) = .whole c := by
  obtain ⟨more, low, high, code⟩ := o
  induction more generalizing low high code with
  | zero => exact ⟨low, [], _, after_last_iff.mpr ⟨⟨Nat.le_refl _, h⟩, rfl, rfl⟩⟩
  | succ more ih =>
    obtain ⟨b, bs, c, hc⟩ := ih 0x80 0xBF (code * 64 + (low.toNat - 0x80)) lowest_le_highest
    exact ⟨low, b :: bs, c, after_more_iff.mpr ⟨⟨Nat.le_refl _, h⟩, hc⟩⟩

/-- There is a byte that a character begun admits. -/
def Lead.IsOpen (l : Lead) : Prop := ∀ o, l = .begins o → o.low.toNat ≤ o.high.toNat

theorem isOpen_lead (b : UInt8) : (lead b).IsOpen := by
  intro o hl
  cases hl ▸ leads_lead b with
  | two => exact lowest_le_highest
  | three h hlow hhigh => simp only; omega
  | four h hlow hhigh => simp only; omega

theorem Lead.IsOpen.push {l : Lead} (b : UInt8) : (l.push b).IsOpen := by
  intro o h
  cases l with
  | whole | stray => cases h
  | begins o =>
    obtain ⟨more, low, high, code⟩ := o
    simp only [Lead.push] at h
    split at h
    · cases more with
      | zero => cases h
      | succ more =>
        cases h
        exact lowest_le_highest
    · cases h

theorem Lead.IsOpen.after {l : Lead} (h : l.IsOpen) (bs : List UInt8) : (l.after bs).IsOpen := by
  induction bs generalizing l with
  | nil => exact h
  | cons b bs ih => exact ih (.push b)

theorem isPrefix_of_begins (h : (lead b).after bs = .begins o) :
    ∃ c, b :: bs <+: String.utf8EncodeChar c := by
  obtain ⟨b', bs', c, hc⟩ := exists_whole o ((isOpen_lead b).after bs o h)
  rw [← h, ← after_append, after_eq_whole_iff] at hc
  exact ⟨c, hc ▸ List.prefix_append (b :: bs) (b' :: bs')⟩

theorem begins_of_isPrefix (h : b :: bs <+: String.utf8EncodeChar c)
    (hne : b :: bs ≠ String.utf8EncodeChar c) : ∃ o, (lead b).after bs = .begins o := by
  obtain ⟨tail, htail⟩ := h
  rw [List.cons_append] at htail
  have hc := after_eq_whole_iff.mpr htail.symm
  rw [after_append] at hc
  cases hl : (lead b).after bs with
  | begins o => exact ⟨o, rfl⟩
  | stray => cases after_stray.symm.trans (hl ▸ hc)
  | whole d =>
    obtain ⟨rfl, rfl⟩ := after_whole_iff.mp (hl ▸ hc)
    exact absurd (by simpa using htail) hne

@[simp] theorem lossy_nil : lossy [] = [] := rfl

theorem lossy_cons (b : UInt8) (rest : List UInt8) : lossy (b :: rest) =
    match lead b with
    | .whole c => c :: lossy rest
    | .begins o => lossyFrom (some o) rest
    | .stray => replacement :: lossy rest := by
  simp only [lossy, lossyFrom, next, start]
  cases lead b <;> rfl

theorem lossyFrom_cons (o : Owed) (b : UInt8) (rest : List UInt8) :
    lossyFrom (some o) (b :: rest) =
      match (Lead.begins o).push b with
      | .whole c => c :: lossy rest
      | .begins o' => lossyFrom (some o') rest
      | .stray => replacement :: lossy (b :: rest) := by
  simp only [lossyFrom, next, Lead.push]
  split
  · cases o.push b <;> rfl
  · rfl

/-- What is read behind a lead; behind a stray byte reading begins anew. -/
def Lead.reads : Lead → List UInt8 → Option (List Char)
  | .whole c, rest => some (c :: lossy rest)
  | .begins o, rest => some (lossyFrom (some o) rest)
  | .stray, _ => none

theorem reads_cons {l : Lead} (h : l.push b ≠ .stray) (rest : List UInt8) :
    l.reads (b :: rest) = (l.push b).reads rest := by
  cases l with
  | whole | stray => exact absurd rfl h
  | begins o =>
    rw [Lead.reads, lossyFrom_cons]
    generalize (Lead.begins o).push b = l at h
    cases l with
    | whole | begins => rfl
    | stray => exact absurd rfl h

theorem reads_append {l : Lead} (h : l.after bs ≠ .stray) (rest : List UInt8) :
    l.reads (bs ++ rest) = (l.after bs).reads rest := by
  induction bs generalizing l with
  | nil => rfl
  | cons b bs ih =>
    have hb : l.push b ≠ .stray := by
      intro hb
      refine h ?_
      change (l.push b).after bs = .stray
      rw [hb, after_stray]
    rw [List.cons_append, reads_cons hb]
    exact ih h

/-- The decoder goes on from where some bytes have left it. -/
theorem lossy_append {l : Lead} (h : (lead b).after bs = l) (hl : l ≠ .stray) (rest : List UInt8) :
    some (lossy (b :: bs ++ rest)) = l.reads rest := by
  subst h
  rw [← reads_append hl, List.cons_append, lossy_cons]
  generalize lead b = l at hl
  cases l with
  | whole | begins => rfl
  | stray => exact absurd after_stray hl

theorem lossy_begun (h : (lead b).after bs = .begins o) (rest : List UInt8) :
    lossy (b :: bs ++ rest) = lossyFrom (some o) rest :=
  Option.some.inj (lossy_append h nofun rest)

/-- A whole character is read as itself, whatever follows it. -/
theorem lossy_char (c : Char) (rest : List UInt8) :
    lossy (String.utf8EncodeChar c ++ rest) = c :: lossy rest := by
  obtain ⟨b, bs, h⟩ := exists_after c
  rw [after_eq_whole_iff.mp h]
  exact Option.some.inj (lossy_append h nofun rest)

end HeapPressure.Text.Utf8
