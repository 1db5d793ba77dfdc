import HeapPressure.Proofs.Text.Numerals
import HeapPressure.Shell.Expansion
import HeapPressure.Shell.Names

/-!
Texts in quotes. What the shell writes in quotes it reads back as one word, and that word makes a
single field, which is the text again: nothing in it is worked out, split or taken for a pattern.
-/
namespace HeapPressure.Shell

/-- A word that is nothing but quoted texts, which make up a text together. -/
inductive Word.Quotes : Word → List Char → Prop where
  | nil : Quotes [] []
  | cons {w : Word} {cs : List Char} (s : List Char) (h : Quotes w cs) :
      Quotes (.quoted s :: w) (s ++ cs)

namespace Word.Quotes

variable {w : Word} {cs : List Char}

theorem onto (s : List Char) (h : Quotes w cs) : Quotes (Piece.onto (.quoted s) w) (s ++ cs) := by
  cases h with
  | nil => exact .cons s .nil
  | cons t h =>
    rw [← List.append_assoc]
    exact .cons (s ++ t) h

theorem onto_ne_nil (s : List Char) (h : Quotes w cs) : Piece.onto (.quoted s) w ≠ [] := by
  cases h <;> exact List.cons_ne_nil _ _

end Word.Quotes

/-- Where a word is over: at the end of the text or at a character that ends words. -/
def WordEnds (rest : List Char) : Prop := ∀ c ∈ rest.head?, endsWord c = true

theorem word_of_ends {fuel : Nat} {rest : List Char} (hends : WordEnds rest) :
    word (fuel + 1) rest = .ok ([], rest) := by
  cases rest with
  | nil => rfl
  | cons c rest =>
    have hc : endsWord c = true := hends c rfl
    have hplain : c ≠ '\'' ∧ c ≠ '\"' ∧ c ≠ '\\' ∧ c ≠ '$' ∧ c ≠ '\x60' := by
      refine ⟨?_, ?_, ?_, ?_, ?_⟩ <;> rintro rfl <;> cases hc
    obtain ⟨hsingle, hdouble, hback, hdollar, hbackquote⟩ := hplain
    rw [word.eq_def]
    simp_all

/-- The characters in front of the first single quote. -/
theorem takeWhile_plain {plain rest : List Char} (hplain : '\'' ∉ plain)
    (hrest : ∀ c ∈ rest.head?, c = '\'') : (plain ++ rest).takeWhile (· != '\'') = plain := by
  refine Text.takeWhile_append_stop (fun c hc => ?_) fun c hc => ?_
  · simpa using fun h : c = '\'' => hplain (h ▸ hc)
  · simpa using hrest c hc

/-- Single quotes around a text without such quotes are taken off. -/
theorem word_single {fuel : Nat} {plain rest : List Char} (hplain : '\'' ∉ plain) :
    word (fuel + 1) ('\'' :: (plain ++ '\'' :: rest)) =
      (word fuel rest).map fun r => (Piece.onto (.quoted plain) r.1, r.2) := by
  have htake : (plain ++ '\'' :: rest).takeWhile (· != '\'') = plain :=
    takeWhile_plain hplain (by simp)
  rw [word.eq_def]
  simp only [htake, List.drop_left]
  cases word fuel rest <;> rfl

/-- Single quotes mean nothing between double ones. -/
theorem text_quotes_replicate {fuel n : Nat} {rest : List Char} (hn : n < fuel) :
    text fuel .quotes (List.replicate n '\'' ++ '\"' :: rest) =
      .ok (if n = 0 then [] else [.quoted (List.replicate n '\'')], rest) := by
  induction n generalizing fuel with
  | zero =>
    obtain ⟨fuel, rfl⟩ := Nat.exists_eq_add_of_lt hn
    rw [text.eq_def]
    rfl
  | succ n ih =>
    obtain ⟨fuel, rfl⟩ : ∃ m, fuel = m + 1 := ⟨fuel - 1, by omega⟩
    have hrest := ih (Nat.lt_of_succ_lt_succ hn)
    have hfurther : text (fuel + 1) .quotes (List.replicate (n + 1) '\'' ++ '\"' :: rest) =
        (text fuel .quotes (List.replicate n '\'' ++ '\"' :: rest)).bind fun r =>
          .ok (Piece.onto (.quoted ['\'']) r.1, r.2) := by
      rw [text.eq_def]
      rfl
    rw [hfurther, hrest]
    cases n <;> rfl

/-- Double quotes around single ones are taken off. -/
theorem word_double {fuel n : Nat} {rest : List Char} :
    word (fuel + 1) ('\"' :: (List.replicate (n + 1) '\'' ++ '\"' :: rest)) =
      (word fuel rest).map fun r => (.quoted (List.replicate (n + 1) '\'') :: r.1, r.2) := by
  have hfuel : n + 1 < 2 * (List.replicate (n + 1) '\'' ++ '\"' :: rest).length + 2 := by
    simp
    omega
  have htext := @text_quotes_replicate _ _ rest hfuel
  have hstep (cs : List Char) : word (fuel + 1) ('\"' :: cs) =
      (text (2 * cs.length + 2) .quotes cs).bind fun q => (word fuel q.2).bind fun r =>
        .ok ((if q.1.isEmpty then [.quoted []] else q.1) ++ r.1, r.2) := by
    rw [word.eq_def]
    rfl
  rw [hstep, htext, if_neg n.succ_ne_zero]
  change (word fuel rest).bind _ = _
  cases word fuel rest <;> rfl

namespace Names

theorem singleQuoted_go_of_not_mem {fuel : Nat} {cs : List Char} (hcs : '\'' ∉ cs) :
    singleQuoted.go (fuel + 1) cs = '\'' :: (cs ++ ['\'']) := by
  have htake : cs.takeWhile (· != '\'') = cs := by
    have hall := @takeWhile_plain cs [] hcs (by simp)
    rwa [List.append_nil] at hall
  rw [singleQuoted.go]
  simp [htake]

theorem singleQuoted_go_append {fuel n : Nat} {plain rest : List Char} (hplain : '\'' ∉ plain)
    (hrest : rest.head? ≠ some '\'') :
    singleQuoted.go (fuel + 1) (plain ++ (List.replicate (n + 1) '\'' ++ rest)) =
      '\'' :: (plain ++ '\'' :: '\"' :: (List.replicate (n + 1) '\'' ++ '\"' ::
        if rest.isEmpty then [] else singleQuoted.go fuel rest)) := by
  have hfront : (plain ++ (List.replicate (n + 1) '\'' ++ rest)).takeWhile (· != '\'') = plain :=
    takeWhile_plain hplain (by simp [List.replicate_succ])
  have hnone : rest.takeWhile (· == '\'') = [] := by
    cases rest with
    | nil => rfl
    | cons c rest => exact List.takeWhile_cons_of_neg (by simpa using hrest)
  have hquotes : (List.replicate (n + 1) '\'' ++ rest).takeWhile (· == '\'') =
      List.replicate (n + 1) '\'' := by
    rw [List.takeWhile_append_of_pos (by simp +contextual [List.mem_replicate]), hnone,
      List.append_nil]
  rw [singleQuoted.go]
  simp only [hfront, List.drop_left, hquotes]
  simp [List.replicate_succ]

/-- A text has no single quotes, or it has its first ones behind some other text. -/
theorem quotes_split (cs : List Char) : '\'' ∉ cs ∨ ∃ plain n rest, '\'' ∉ plain ∧
    rest.head? ≠ some '\'' ∧ cs = plain ++ (List.replicate (n + 1) '\'' ++ rest) := by
  induction cs with
  | nil => exact .inl List.not_mem_nil
  | cons c cs ih =>
    by_cases hc : c = '\''
    · subst hc
      refine .inr ?_
      by_cases hhead : cs.head? = some '\''
      · rcases ih with hcs | ⟨plain, n, rest, hplain, hrest, rfl⟩
        · exact absurd (List.mem_of_mem_head? hhead) hcs
        · cases plain with
          | nil => exact ⟨[], n + 1, rest, hplain, hrest, rfl⟩
          | cons d plain =>
            obtain rfl : d = '\'' := by simpa using hhead
            exact absurd List.mem_cons_self hplain
      · exact ⟨[], 0, cs, List.not_mem_nil, hhead, rfl⟩
    · rcases ih with hcs | ⟨plain, n, rest, hplain, hrest, rfl⟩
      · exact .inl fun h => (List.mem_cons.mp h).elim (fun h => hc h.symm) hcs
      · exact .inr ⟨c :: plain, n, rest,
          fun h => (List.mem_cons.mp h).elim (fun h => hc h.symm) hplain, hrest, rfl⟩

/-- What is written in quotes is read as one word, which is quoted as a whole. -/
theorem word_singleQuoted_go {n fuel : Nat} {cs rest : List Char} (hn : cs.length < n)
    (hfuel : (singleQuoted.go n cs).length < fuel) (hends : WordEnds rest) :
    ∃ w, word fuel (singleQuoted.go n cs ++ rest) = .ok (w, rest) ∧ w ≠ [] ∧ w.Quotes cs := by
  induction n generalizing fuel cs with
  | zero => cases hn
  | succ n ih =>
    rcases quotes_split cs with hcs | ⟨plain, k, behind, hplain, hbehind, rfl⟩
    · rw [singleQuoted_go_of_not_mem hcs] at hfuel ⊢
      obtain ⟨fuel, rfl⟩ : ∃ m, fuel = m + 2 := ⟨fuel - 2, by simp at hfuel; omega⟩
      refine ⟨[.quoted cs], ?_, List.cons_ne_nil _ _, by simpa using Word.Quotes.cons cs .nil⟩
      rw [List.cons_append, List.append_assoc]
      exact (word_single hcs).trans (congrArg _ (word_of_ends hends))
    · rw [singleQuoted_go_append hplain hbehind] at hfuel ⊢
      set tail := if behind.isEmpty then [] else singleQuoted.go n behind with htail
      obtain ⟨fuel, rfl⟩ : ∃ m, fuel = m + 3 := ⟨fuel - 3, by simp at hfuel; omega⟩
      obtain ⟨w, hword, hquotes⟩ : ∃ w, word (fuel + 1) (tail ++ rest) = .ok (w, rest) ∧
          w.Quotes behind := by
        cases behind with
        | nil => exact ⟨[], word_of_ends hends, .nil⟩
        | cons c behind =>
          have hn' : (c :: behind).length < n := by simp at hn ⊢; omega
          have hfuel' : (singleQuoted.go n (c :: behind)).length < fuel + 1 := by
            simp [htail] at hfuel ⊢
            omega
          obtain ⟨w, hword, -, hquotes⟩ := ih hn' hfuel'
          exact ⟨w, hword, hquotes⟩
      refine ⟨Piece.onto (.quoted plain) (.quoted (List.replicate (k + 1) '\'') :: w), ?_,
        (hquotes.cons _).onto_ne_nil plain, (hquotes.cons _).onto plain⟩
      have hall : '\'' :: (plain ++ '\'' :: '\"' :: (List.replicate (k + 1) '\'' ++
            '\"' :: tail)) ++ rest =
          '\'' :: (plain ++ '\'' :: ('\"' :: (List.replicate (k + 1) '\'' ++
            '\"' :: (tail ++ rest)))) := by
        simp only [List.cons_append, List.append_assoc]
      rw [hall, word_single hplain, word_double, hword]
      rfl

end Names

/-- The parts that quoted texts become. -/
def Part.IsQuoted (p : Part) : Prop := ∃ s, p = .solid s true

namespace Part.Fields

variable {α : Type}

theorem extend_extend (f : Fields α) (s t : List α) :
    (f.extend s).extend t = f.extend (s ++ t) := by
  simp [extend, List.append_assoc]

/-- Quoted parts go on with the field that was begun, none is split. -/
theorem foldl_add_quoted (keep : Bool → Char → α) (separators : List Char) {parts : List Part}
    (h : ∀ p ∈ parts, p.IsQuoted) (f : Fields α) (s : List α) :
    parts.foldl (add keep separators) (f.extend s) =
      f.extend (s ++ (parts.flatMap Part.text).map (keep true)) := by
  induction parts generalizing s with
  | nil => simp
  | cons p parts ih =>
    obtain ⟨t, rfl⟩ := h p List.mem_cons_self
    rw [List.foldl_cons, add, extend_extend, ih fun p hp => h p (List.mem_cons_of_mem _ hp)]
    simp [Part.text]

theorem list_extend (s : List α) : ((({} : Fields α).extend s).list) = [s] := rfl

end Part.Fields

/-- Quoted parts make up one field together, as soon as there is one. -/
theorem Part.fields_quoted {α : Type} (keep : Bool → Char → α) (separators : List Char)
    {parts : List Part} (h : ∀ p ∈ parts, p.IsQuoted) (hparts : parts ≠ []) :
    Part.fields keep separators parts = [(parts.flatMap Part.text).map (keep true)] := by
  cases parts with
  | nil => exact absurd rfl hparts
  | cons p parts =>
    obtain ⟨t, rfl⟩ := h p List.mem_cons_self
    rw [Part.fields, List.foldl_cons, Part.Fields.add,
      Part.Fields.foldl_add_quoted keep separators fun p hp => h p (List.mem_cons_of_mem _ hp),
      Part.Fields.list_extend]
    simp [Part.text]

namespace Word

variable {capture : Capture} {w : Word} {cs : List Char}

/-- Nothing is worked out for a quoted word: the state stays. -/
theorem ofPieces_quotes {fuel : Nat} (loose : Bool) (h : w.Quotes cs) (hfuel : w.length < fuel)
    (s : State) : ∃ parts, (ofPieces capture fuel loose w).run s = .ok (parts, s) ∧
      parts.length = w.length ∧ (∀ p ∈ parts, p.IsQuoted) ∧ parts.flatMap Part.text = cs := by
  induction h generalizing fuel with
  | nil =>
    obtain ⟨fuel, rfl⟩ := Nat.exists_eq_add_of_lt hfuel
    exact ⟨[], by rw [ofPieces.eq_def]; rfl, rfl, by simp, rfl⟩
  | @cons w cs t h ih =>
    obtain ⟨fuel, rfl⟩ : ∃ m, fuel = m + 2 := ⟨fuel - 2, by simp at hfuel; omega⟩
    have hfuel' : w.length < fuel + 1 := by simp at hfuel; omega
    obtain ⟨parts, hrun, hlength, hquoted, htext⟩ := ih hfuel'
    refine ⟨.solid t true :: parts, ?_, by simp [hlength], ?_, by simp [Part.text, htext]⟩
    · have hpieces : (ofPieces capture (fuel + 2) loose (.quoted t :: w)).run s =
          ((ofPieces capture (fuel + 1) loose w).run s).map fun r =>
            (.solid t true :: r.1, r.2) := by
        rw [ofPieces.eq_def]
        change Except.bind ((ofPieces capture (fuel + 1) loose w).run s) _ = _
        cases (ofPieces capture (fuel + 1) loose w).run s <;> rfl
      rw [hpieces, hrun]
      rfl
    · intro p hp
      rcases List.mem_cons.mp hp with rfl | hp
      · exact ⟨t, rfl⟩
      · exact hquoted p hp

theorem withHome_quotes (h : w.Quotes cs) (s : State) (isValue : Bool) :
    withHome s isValue w = w := by
  cases h <;> rw [withHome] <;> simp

theorem parts_quotes (h : w.Quotes cs) (s : State) (hlength : cs.length ≤ s.longestText) :
    ∃ ps, (parts capture w).run s = .ok (ps, s) ∧ ps.length = w.length ∧
      (∀ p ∈ ps, p.IsQuoted) ∧ ps.flatMap Part.text = cs := by
  have hdepth : w.length < depth w := Nat.lt_add_of_pos_right (by decide)
  obtain ⟨ps, hrun, hps, hquoted, htext⟩ := @ofPieces_quotes capture _ _ _ false h hdepth s
  have hsum : (ps.map fun p => p.text.length).foldl (· + ·) 0 = cs.length := by
    rw [← List.sum_eq_foldl, ← List.length_flatMap, htext]
  refine ⟨ps, ?_, hps, hquoted, htext⟩
  change Except.bind ((ofPieces capture (depth w) false w).run s) _ = _
  rw [hrun]
  change StateT.run (if (ps.map fun p => p.text.length).foldl (· + ·) 0 ≤ s.longestText
    then pure ps else _) s = _
  rw [hsum, if_pos hlength]
  rfl

/-- A quoted word that is not too long makes one field, its text, and changes nothing. -/
theorem fields_quotes (h : w.Quotes cs) (hw : w ≠ []) (s : State)
    (hlength : cs.length ≤ s.longestText) :
    (fields capture w).run s = .ok ([String.ofList cs], s) := by
  obtain ⟨ps, hrun, hps, hquoted, htext⟩ := @parts_quotes capture _ _ h s hlength
  have hsigns : ps.any Part.hasSigns = false := by
    rw [List.any_eq_false]
    intro p hp
    obtain ⟨t, rfl⟩ := hquoted p hp
    simp [Part.hasSigns]
  have hne : ps ≠ [] := by
    rw [← List.length_pos_iff, hps, List.length_pos_iff]
    exact hw
  change Except.bind ((parts capture (withHome s false w)).run s) _ = _
  rw [withHome_quotes h, hrun]
  change StateT.run (if s.has 'f' || !ps.any Part.hasSigns
    then pure ((Part.fields (fun _ c => c) s.separators ps).map String.ofList) else _) s = _
  rw [hsigns, Bool.not_false, Bool.or_true, if_pos rfl,
    Part.fields_quoted (fun _ c => c) s.separators hquoted hne, htext, List.map_id']
  rfl

/-- What is written in quotes is read as one word, and a command gets it as it was. -/
theorem fields_singleQuoted {fuel : Nat} (cs : List Char) {rest : List Char}
    (hfuel : (Names.singleQuoted cs).length < fuel) (hends : WordEnds rest) (s : State)
    (hlength : cs.length ≤ s.longestText) :
    ∃ w, word fuel ((Names.singleQuoted cs).toList ++ rest) = .ok (w, rest) ∧
      (fields capture w).run s = .ok ([String.ofList cs], s) := by
  have htext : (Names.singleQuoted cs).toList = Names.singleQuoted.go (cs.length + 1) cs :=
    String.toList_ofList
  have hfuel' : (Names.singleQuoted.go (cs.length + 1) cs).length < fuel := htext ▸ hfuel
  obtain ⟨w, hword, hw, hquotes⟩ :=
    Names.word_singleQuoted_go cs.length.lt_succ_self hfuel' hends
  exact ⟨w, htext ▸ hword, fields_quotes hquotes hw s hlength⟩

end Word
end HeapPressure.Shell
