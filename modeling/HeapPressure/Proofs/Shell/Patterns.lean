import HeapPressure.Shell.Pattern
import HeapPressure.Proofs.Text.Repair
import Mathlib.Data.List.Infix

/-!
Patterns of the shell. A text fits a pattern if it is put together from what the pattern's glyphs
take; what is cut off a text is the shortest or the longest part that fits; and what is quoted in
a pattern fits itself alone.
-/
namespace HeapPressure.Shell

/-- The characters that a glyph stands for; a star stands for none in particular. -/
inductive Glyph.Takes : Glyph → Char → Prop where
  | char (c : Char) : Takes (.char c) c
  | any (c : Char) : Takes .any c
  | oneOf {negated : Bool} {members : List (Char × Char)} {classes : List String} {c : Char}
      (h : (Glyph.oneOf negated members classes).accepts c = true) :
      Takes (.oneOf negated members classes) c

/-- Without classes those between the ends of a range are meant, or all others. -/
theorem Glyph.takes_oneOf_iff {negated : Bool} {members : List (Char × Char)} {c : Char} :
    (Glyph.oneOf negated members []).Takes c ↔
      ((∃ m ∈ members, m.1 ≤ c ∧ c ≤ m.2) ↔ negated = false) := by
  have haccepts : (Glyph.oneOf negated members []).accepts c = true ↔
      ((∃ m ∈ members, m.1 ≤ c ∧ c ≤ m.2) ↔ negated = false) := by
    cases negated <;> simp [accepts]
  rw [← haccepts]
  constructor
  · rintro ⟨⟩
    assumption
  · exact .oneOf

theorem Glyph.takes_iff {g : Glyph} {c : Char} : g.Takes c ↔ g ≠ .many ∧ g.accepts c = true := by
  constructor
  · rintro (⟨⟩ | ⟨⟩ | h)
    · simp [accepts]
    · simp [accepts]
    · exact ⟨by simp, h⟩
  · rintro ⟨hg, hc⟩
    cases g with
    | char d =>
      obtain rfl : c = d := by simpa [accepts] using hc
      exact .char c
    | any => exact .any c
    | many => exact absurd rfl hg
    | oneOf => exact .oneOf hc

namespace Pattern

/-- The texts of a pattern. -/
inductive Takes : Pattern → List Char → Prop where
  | nil : Takes [] []
  | one {g : Glyph} {p : Pattern} {c : Char} {cs : List Char} (hc : g.Takes c) (h : Takes p cs) :
      Takes (g :: p) (c :: cs)
  | many {p : Pattern} {cs : List Char} (part : List Char) (h : Takes p cs) :
      Takes (.many :: p) (part ++ cs)

variable {p : Pattern} {cs : List Char}

theorem mem_ends_iff {es : List Char} : es ∈ ends cs ↔ es <:+ cs := by
  induction cs with
  | nil => simp [ends]
  | cons c cs ih => rw [ends, List.mem_cons, ih, List.suffix_cons_iff]

theorem fits_many_iff : fits (.many :: p) cs = true ↔ ∃ part es, cs = part ++ es ∧
    fits p es = true := by
  simp only [fits, List.any_eq_true, mem_ends_iff]
  constructor
  · rintro ⟨es, ⟨part, rfl⟩, h⟩
    exact ⟨part, es, rfl, h⟩
  · rintro ⟨part, es, rfl, h⟩
    exact ⟨es, ⟨part, rfl⟩, h⟩

theorem fits_one_iff {g : Glyph} (hg : g ≠ .many) : fits (g :: p) cs = true ↔
    ∃ c es, cs = c :: es ∧ g.accepts c = true ∧ fits p es = true := by
  cases cs with
  | nil => simp [fits.eq_3 _ _ hg]
  | cons c cs => simp [fits.eq_4 _ _ _ _ hg]

theorem fits_iff : p.fits cs = true ↔ p.Takes cs := by
  induction p generalizing cs with
  | nil =>
    rw [fits, List.isEmpty_iff]
    constructor
    · rintro rfl
      exact .nil
    · rintro ⟨⟩
      rfl
  | cons g p ih =>
    by_cases hg : g = .many
    · subst hg
      rw [fits_many_iff]
      constructor
      · rintro ⟨part, es, rfl, h⟩
        exact .many part (ih.mp h)
      · intro h
        cases h with
        | one hc h => exact absurd rfl (Glyph.takes_iff.mp hc).1
        | many part h => exact ⟨part, _, rfl, ih.mpr h⟩
    · rw [fits_one_iff hg]
      constructor
      · rintro ⟨c, es, rfl, hc, h⟩
        exact .one (Glyph.takes_iff.mpr ⟨hg, hc⟩) (ih.mp h)
      · intro h
        cases h with
        | one hc h => exact ⟨_, _, rfl, (Glyph.takes_iff.mp hc).2, ih.mpr h⟩
        | many part h => exact absurd rfl hg

/-- The numbers up to `n` in the order in which they are tried. -/
def inOrder (descending : Bool) (n : Nat) : List Nat :=
  if descending then (List.range (n + 1)).reverse else List.range (n + 1)

theorem mem_inOrder_iff {descending : Bool} {n k : Nat} : k ∈ inOrder descending n ↔ k ≤ n := by
  cases descending <;> simp [inOrder, Nat.lt_succ_iff]

theorem pairwise_inOrder (descending : Bool) (n : Nat) :
    (inOrder descending n).Pairwise fun j k => if descending then k < j else j < k := by
  cases descending with
  | false => exact List.pairwise_lt_range
  | true => exact List.pairwise_reverse.mpr List.pairwise_lt_range

/-- The first number that passes is the greatest or the least of those that do. -/
theorem find?_inOrder {descending : Bool} {n m : Nat} {passes : Nat → Bool}
    (h : (inOrder descending n).find? passes = some m) : m ≤ n ∧ passes m = true ∧
      ∀ k ≤ n, passes k = true → if descending then k ≤ m else m ≤ k := by
  obtain ⟨hm, before, behind, hsplit, hbefore⟩ := List.find?_eq_some_iff_append.mp h
  have hordered := pairwise_inOrder descending n
  rw [hsplit, List.pairwise_append] at hordered
  obtain ⟨-, hbehind, -⟩ := hordered
  refine ⟨?_, hm, fun k hk hpasses => ?_⟩
  · have hmem : m ∈ inOrder descending n := by
      rw [hsplit]
      exact List.mem_append_right _ List.mem_cons_self
    exact mem_inOrder_iff.mp hmem
  · have hmem : k ∈ before ++ m :: behind := hsplit ▸ mem_inOrder_iff.mpr hk
    rcases List.mem_append.mp hmem with hmem | hmem
    · have hfails := hbefore k hmem
      rw [hpasses] at hfails
      cases hfails
    · rcases List.mem_cons.mp hmem with rfl | hmem
      · split <;> exact Nat.le_refl _
      · have hlt := List.rel_of_pairwise_cons hbehind hmem
        cases descending with
        | false => exact Nat.le_of_lt hlt
        | true => exact Nat.le_of_lt hlt

/-- Whether a part is the longest or the shortest one of its kind. -/
def IsExtreme (longest : Bool) (kind : List Char → Prop) (part : List Char) : Prop :=
  kind part ∧
    ∀ other, kind other → if longest then other.length ≤ part.length else part.length ≤ other.length

/-- Parts of a text, numbered so that they are tried in the order of their lengths: the first that
fits is the extreme one. -/
theorem find?_parts (p : Pattern) {n : Nat} {descending longest : Bool} {part : Nat → List Char}
    {isPart : List Char → Prop} (hparts : ∀ t, isPart t ↔ ∃ k ≤ n, t = part k)
    (hlengths : ∀ k ≤ n, ∀ m ≤ n, (if descending then k ≤ m else m ≤ k) →
      if longest then (part k).length ≤ (part m).length else (part m).length ≤ (part k).length) :
    match (inOrder descending n).find? fun k => p.fits (part k) with
    | none => ∀ t, ¬(isPart t ∧ p.Takes t)
    | some m => m ≤ n ∧ IsExtreme longest (fun t => isPart t ∧ p.Takes t) (part m) := by
  split
  · next hfind =>
    rintro t ⟨ht, hfits⟩
    obtain ⟨k, hk, rfl⟩ := (hparts t).mp ht
    exact List.find?_eq_none.mp hfind k (mem_inOrder_iff.mpr hk) (fits_iff.mpr hfits)
  · next m hfind =>
    obtain ⟨hm, hfits, hfirst⟩ := find?_inOrder hfind
    refine ⟨hm, ⟨(hparts _).mpr ⟨m, hm, rfl⟩, fits_iff.mp hfits⟩, ?_⟩
    rintro other ⟨hother, hfits'⟩
    obtain ⟨k, hk, rfl⟩ := (hparts other).mp hother
    exact hlengths k hk m hm (hfirst k hk (fits_iff.mpr hfits'))

theorem isPrefix_iff_exists_take {cs t : List Char} :
    t <+: cs ↔ ∃ n ≤ cs.length, t = cs.take n := by
  constructor
  · intro h
    exact ⟨t.length, h.length_le, List.prefix_iff_eq_take.mp h⟩
  · rintro ⟨n, -, rfl⟩
    exact List.take_prefix n cs

theorem isSuffix_iff_exists_drop {cs t : List Char} :
    t <:+ cs ↔ ∃ n ≤ cs.length, t = cs.drop n := by
  constructor
  · intro h
    exact ⟨cs.length - t.length, Nat.sub_le _ _, List.suffix_iff_eq_drop.mp h⟩
  · rintro ⟨n, -, rfl⟩
    exact List.drop_suffix n cs

/-- The longest or the shortest front that fits is cut off, if there is one. -/
theorem cutFront_cases (p : Pattern) (longest : Bool) (text : String) :
    let cs := octets text.toList
    (∀ part, ¬(part <+: cs ∧ p.Takes part)) ∧ p.cutFront longest text = text.toList ∨
    ∃ part rest, cs = part ++ rest ∧ p.cutFront longest text = ofOctets rest ∧
      IsExtreme longest (fun t => t <+: cs ∧ p.Takes t) part := by
  intro cs
  have hlengths : ∀ k ≤ cs.length, ∀ m ≤ cs.length, (if longest then k ≤ m else m ≤ k) →
      if longest then (cs.take k).length ≤ (cs.take m).length
      else (cs.take m).length ≤ (cs.take k).length := by
    intro k hk m hm h
    rwa [List.length_take, List.length_take, Nat.min_eq_left hk, Nat.min_eq_left hm]
  have hfind := find?_parts p (fun _ => isPrefix_iff_exists_take) hlengths
  split at hfind
  · next hnone =>
    refine .inl ⟨hfind, ?_⟩
    rw [cutFront]
    split
    · next hsome => cases hnone.symm.trans hsome
    · rfl
  · next n hsome =>
    refine .inr ⟨_, _, (List.take_append_drop n cs).symm, ?_, hfind.2⟩
    rw [cutFront]
    split
    · next hsome' =>
      cases hsome.symm.trans hsome'
      rfl
    · next hnone => cases hsome.symm.trans hnone

/-- The longest or the shortest back that fits is cut off, if there is one. -/
theorem cutBack_cases (p : Pattern) (longest : Bool) (text : String) :
    let cs := octets text.toList
    (∀ part, ¬(part <:+ cs ∧ p.Takes part)) ∧ p.cutBack longest text = text.toList ∨
    ∃ rest part, cs = rest ++ part ∧ p.cutBack longest text = ofOctets rest ∧
      IsExtreme longest (fun t => t <:+ cs ∧ p.Takes t) part := by
  intro cs
  have hlengths : ∀ k ≤ cs.length, ∀ m ≤ cs.length, (if !longest then k ≤ m else m ≤ k) →
      if longest then (cs.drop k).length ≤ (cs.drop m).length
      else (cs.drop m).length ≤ (cs.drop k).length := by
    intro k hk m hm h
    rw [List.length_drop, List.length_drop]
    cases longest <;> simp at h ⊢ <;> omega
  have hfind := find?_parts p (fun _ => isSuffix_iff_exists_drop) hlengths
  have horder : (if longest then List.range (cs.length + 1)
      else (List.range (cs.length + 1)).reverse) = inOrder (!longest) cs.length := by
    cases longest <;> rfl
  split at hfind
  · next hnone =>
    refine .inl ⟨hfind, ?_⟩
    rw [cutBack]
    split
    · next hsome => cases hnone.symm.trans (horder ▸ hsome)
    · rfl
  · next n hsome =>
    refine .inr ⟨_, _, (List.take_append_drop n cs).symm, ?_, hfind.2⟩
    rw [cutBack]
    split
    · next hsome' =>
      cases hsome.symm.trans (horder ▸ hsome')
      rfl
    · next hnone => cases hsome.symm.trans (horder ▸ hnone)

end Pattern

/-- A text as bytes that stand for characters. -/
theorem octets_eq (cs : List Char) :
    octets cs = (Text.Utf8.encode cs).map fun b => Char.ofNat b.toNat := by
  rw [octets]
  split
  · next hall =>
    rw [List.all_eq_true] at hall
    have heach : ∀ c ∈ cs, (Text.Utf8.encodeChar c).map (fun b => Char.ofNat b.toNat) = [c] := by
      intro c hc
      have hlt : c.toNat < 0x80 := by simpa using hall c hc
      have hbyte : c.toNat.toUInt8.toNat = c.toNat := by
        rw [Nat.toUInt8_eq, UInt8.toNat_ofNat']
        exact Nat.mod_eq_of_lt (Nat.lt_trans hlt (by decide))
      simp [Text.Utf8.encodeChar, hlt, hbyte]
    rw [Text.Utf8.encode, List.map_flatMap, List.flatMap_congr heach]
    simp
  · rfl

theorem octets_injective : Function.Injective octets := by
  intro cs ds h
  have htoNat (b : UInt8) : (Char.ofNat b.toNat).toNat = b.toNat :=
    Text.Utf8.toNat_ofNat (.inl (Nat.lt_trans b.toNat_lt (by decide)))
  have hbyte : Function.Injective fun b : UInt8 => Char.ofNat b.toNat := by
    intro a b hab
    rw [← UInt8.toNat_inj, ← htoNat a, ← htoNat b]
    exact congrArg Char.toNat hab
  have hlossy (es : List Char) : Text.Utf8.lossy (Text.Utf8.encode es) = es := by
    have hencode : Text.Utf8.encode es = Text.Utf8.bytesOf es :=
      List.flatMap_congr fun c _ => Text.Utf8.encodeChar_eq_utf8EncodeChar c
    simpa [hencode, Text.Utf8.lossy_nil] using Text.Utf8.lossy_bytesOf es []
  rw [octets_eq, octets_eq] at h
  rw [← hlossy cs, ← hlossy ds, List.map_injective_iff.mpr hbyte h]

namespace Pattern

/-- Characters that are taken as they stand make a pattern of just them. -/
theorem ofMarked_solid {fuel : Nat} {cs : List Char} (h : cs.length < fuel) :
    ofMarked fuel (cs.map fun c => (c, true)) = cs.map Glyph.char := by
  induction fuel generalizing cs with
  | zero => cases h
  | succ fuel ih =>
    cases cs with
    | nil => rfl
    | cons c cs =>
      have hrest := ih (Nat.lt_of_succ_lt_succ h)
      rw [List.map_cons, ofMarked, hrest, List.map_cons] <;> simp

theorem takes_chars_iff {cs ds : List Char} : Takes (cs.map Glyph.char) ds ↔ ds = cs := by
  induction cs generalizing ds with
  | nil =>
    constructor
    · rintro ⟨⟩
      rfl
    · rintro rfl
      exact .nil
  | cons c cs ih =>
    constructor
    · rintro (_ | ⟨⟨⟩, h⟩)
      rw [ih.mp h]
    · rintro rfl
      exact .one (.char c) (ih.mpr rfl)

/-- What is quoted as a whole fits itself alone, whatever signs are in it. -/
theorem fitsText_quoted_iff (cs : List Char) (text : String) :
    (read (cs.map fun c => (c, true))).fitsText text = true ↔ text.toList = cs := by
  have hbytes : ((cs.map fun c => (c, true)).flatMap fun c =>
      (octets [c.1]).map fun b => (b, c.2)) = (octets cs).map fun b => (b, true) := by
    simp [octets_eq, Text.Utf8.encode, List.flatMap_map, List.map_flatMap, List.map_map]
  rw [fitsText, read, hbytes, List.length_map, ofMarked_solid (Nat.lt_succ_self _), fits_iff,
    takes_chars_iff]
  exact octets_injective.eq_iff

end Pattern
end HeapPressure.Shell
