import HeapPressure.Proofs.Json.Grammar

/-!
Strings of JSON: what is scanned up to the closing quote is what the grammar says, whatever stands
behind it.
-/
namespace HeapPressure.Json

/-- The texts of a piece. -/
inductive WritesPiece : Piece → List Char → Prop where
  | plain {c : Char} (hq : c ≠ '\"') (hb : c ≠ '\\') (hc : 0x20 ≤ c.toNat) :
      WritesPiece (.char c) [c]
  | letter {e c : Char} (h : shortEscape? e = some c) : WritesPiece (.char c) ['\\', e]
  | unit {a b c d : Char} {u : Nat} (h : hexUnit? a b c d = some u) :
      WritesPiece (.ofUnit u) ['\\', 'u', a, b, c, d]

inductive WritesPieces : List Piece → List Char → Prop where
  | nil : WritesPieces [] []
  | cons {p : Piece} {ps : List Piece} {w ws : List Char} (h : WritesPiece p w)
      (hs : WritesPieces ps ws) : WritesPieces (p :: ps) (w ++ ws)

variable {p : Piece} {ps qs : List Piece} {c : Char} {s w v cs rest : List Char}

theorem ne_u_of_shortEscape? {e : Char} (h : shortEscape? e = some c) : e ≠ 'u' := by
  rintro rfl
  cases h

theorem scanString_piece (h : WritesPiece p w) (cs : List Char) :
    scanString (w ++ cs) = (scanString cs).map fun r => (p :: r.1, r.2) := by
  rw [Option.map_eq_bind]
  cases h with
  | plain hq hb hc =>
    have hlow : ¬_ < 0x20 := Nat.not_lt_of_le hc
    rw [List.singleton_append, scanString]
    · rw [if_neg (by simp [hlow, hb])]
      rfl
    all_goals simp_all
  | letter h =>
    have hu := ne_u_of_shortEscape? h
    rw [List.cons_append, List.singleton_append, scanString]
    · rw [h]
      rfl
    · simp_all
  | unit h =>
    simp only [List.cons_append, List.nil_append]
    rw [scanString, h]
    rfl

theorem WritesPieces.scanString (h : WritesPieces ps w) (rest : List Char) :
    scanString (w ++ '\"' :: rest) = some (ps, rest) := by
  induction h with
  | nil => rfl
  | cons h _ ih =>
    rw [List.append_assoc, scanString_piece h, ih]
    rfl

theorem writesPieces_of_scanString (h : scanString cs = some (ps, rest)) :
    ∃ w, cs = w ++ '\"' :: rest ∧ WritesPieces ps w := by
  fun_induction scanString cs generalizing ps with
  | case1 => cases h
  | case2 cs =>
    cases h
    exact ⟨[], rfl, .nil⟩
  | case3 a b c d cs ih =>
    simp only [Option.bind_eq_bind, Option.bind_eq_some_iff] at h
    obtain ⟨u, hu, ⟨ps', rest'⟩, hs, h⟩ := h
    cases h
    obtain ⟨w, rfl, hw⟩ := ih hs
    exact ⟨_, rfl, .cons (.unit hu) hw⟩
  | case4 e cs _ ih =>
    simp only [Option.bind_eq_bind, Option.bind_eq_some_iff] at h
    obtain ⟨c, hc, ⟨ps', rest'⟩, hs, h⟩ := h
    cases h
    obtain ⟨w, rfl, hw⟩ := ih hs
    exact ⟨_, rfl, .cons (.letter hc) hw⟩
  | case5 => cases h
  | case6 c cs hq _ _ hplain ih =>
    simp only [Option.bind_eq_bind, Option.bind_eq_some_iff] at h
    obtain ⟨⟨ps', rest'⟩, hs, h⟩ := h
    cases h
    obtain ⟨w, rfl, hw⟩ := ih hs
    simp only [Bool.or_eq_true, decide_eq_true_eq, beq_iff_eq, not_or, Nat.not_lt] at hplain
    exact ⟨_, rfl, .cons (.plain hq hplain.2 hplain.1) hw⟩

theorem WritesPieces.append (h : WritesPieces ps w) (h' : WritesPieces qs v) :
    WritesPieces (ps ++ qs) (w ++ v) := by
  induction h with
  | nil => exact h'
  | cons h _ ih =>
    rw [List.append_assoc]
    exact .cons h ih

theorem WritesPiece.writesChar (h : WritesPiece p w) (hp : p = .char c) : WritesChar c w := by
  cases h with
  | plain hq hb hc =>
    cases hp
    exact .plain hq hb hc
  | letter h =>
    cases hp
    exact .letter h
  | @unit _ _ _ _ u h =>
    rw [Piece.ofUnit] at hp
    split at hp
    · cases hp
    · next hu =>
      cases hp
      exact .unit h (by simpa using hu)

theorem WritesPiece.hexUnit? {u : Nat} (h : WritesPiece p w) (hp : p = .surrogate u) :
    ∃ a b c d, hexUnit? a b c d = some u ∧ isSurrogate u = true ∧ w = ['\\', 'u', a, b, c, d] := by
  cases h with
  | plain | letter => cases hp
  | @unit a b c d u' h =>
    rw [Piece.ofUnit] at hp
    split at hp
    · next hu =>
      cases hp
      exact ⟨a, b, c, d, h, hu, rfl⟩
    · cases hp

/-- The pieces that a character is made of, one or a pair. -/
theorem WritesChar.writesPieces (h : WritesChar c w) : ∃ ps, WritesPieces ps w ∧
    ∀ qs, joinPieces (ps ++ qs) = (joinPieces qs).map (c :: ·) := by
  cases h with
  | plain hq hb hc => exact ⟨_, .cons (.plain hq hb hc) .nil, fun _ => rfl⟩
  | letter h => exact ⟨_, .cons (.letter h) .nil, fun _ => rfl⟩
  | @unit _ _ _ _ u h hu =>
    have hp : Piece.ofUnit u = .char (Char.ofNat u) := by simp [Piece.ofUnit, hu]
    have hw := WritesPieces.cons (.unit h) .nil
    rw [hp] at hw
    exact ⟨_, hw, fun _ => rfl⟩
  | @pair _ _ _ _ _ _ _ _ high low hh hl hhigh hlow =>
    have hp : Piece.ofUnit high = .surrogate high := by
      simp [Piece.ofUnit, isSurrogate]
      omega
    have hq : Piece.ofUnit low = .surrogate low := by
      simp [Piece.ofUnit, isSurrogate]
      omega
    have hw := WritesPieces.cons (.unit hh) (.cons (.unit hl) .nil)
    rw [hp, hq] at hw
    refine ⟨_, hw, fun qs => ?_⟩
    simp [joinPieces, hhigh.2, hlow.1]

theorem WritesChars.exists_pieces (h : WritesChars s w) :
    ∃ ps, WritesPieces ps w ∧ joinPieces ps = some s := by
  induction h with
  | nil => exact ⟨[], .nil, rfl⟩
  | cons h _ ih =>
    obtain ⟨ps, hps, hjoin⟩ := h.writesPieces
    obtain ⟨qs, hqs, hrest⟩ := ih
    exact ⟨ps ++ qs, hps.append hqs, by rw [hjoin, hrest]; rfl⟩

theorem WritesPieces.writesChars (h : WritesPieces ps w) (hs : joinPieces ps = some s) :
    WritesChars s w := by
  fun_induction joinPieces ps generalizing s w with
  | case1 =>
    cases h
    cases hs
    exact .nil
  | case2 c ps ih =>
    obtain ⟨s', hs', rfl⟩ := Option.map_eq_some_iff.mp hs
    cases h with
    | cons h hps => exact .cons (h.writesChar rfl) (ih hps hs')
  | case3 high low ps hpair ih =>
    obtain ⟨s', hs', rfl⟩ := Option.map_eq_some_iff.mp hs
    simp only [Bool.and_eq_true, decide_eq_true_eq] at hpair
    obtain _ | ⟨hhigh, _ | ⟨hlow, hps⟩⟩ := h
    obtain ⟨a, b, c, d, hh, hsh, rfl⟩ := hhigh.hexUnit? rfl
    obtain ⟨a', b', c', d', hl, hsl, rfl⟩ := hlow.hexUnit? rfl
    simp only [isSurrogate, Bool.and_eq_true, decide_eq_true_eq] at hsh hsl
    rw [← List.append_assoc]
    exact .cons (.pair hh hl ⟨hsh.1, hpair.1⟩ ⟨hpair.2, hsl.2⟩) (ih hps hs')
  | case4 => cases hs
  | case5 => cases hs

theorem textOfPieces_eq_some_iff {t : String} :
    textOfPieces ps = some t ↔ joinPieces ps = some t.toList := by
  rw [textOfPieces, Option.map_eq_some_iff]
  constructor
  · rintro ⟨s, hs, rfl⟩
    rw [hs, String.toList_ofList]
  · exact fun h => ⟨_, h, String.ofList_toList⟩

/-- A text is scanned up to its closing quote exactly when the grammar writes it. -/
theorem scanString_iff {t : String} :
    (∃ ps, scanString cs = some (ps, rest) ∧ textOfPieces ps = some t) ↔
      ∃ w, cs = w ++ '\"' :: rest ∧ WritesChars t.toList w := by
  constructor
  · rintro ⟨ps, hscan, ht⟩
    obtain ⟨w, rfl, hw⟩ := writesPieces_of_scanString hscan
    exact ⟨w, rfl, hw.writesChars (textOfPieces_eq_some_iff.mp ht)⟩
  · rintro ⟨w, rfl, hw⟩
    obtain ⟨ps, hps, hjoin⟩ := hw.exists_pieces
    exact ⟨ps, hps.scanString rest, textOfPieces_eq_some_iff.mpr hjoin⟩

end HeapPressure.Json
