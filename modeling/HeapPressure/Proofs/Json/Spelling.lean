import HeapPressure.Proofs.Json.Reading

/-!
The grammar leaves nothing out: what is read without a fault was spelled, so the two agree on
every text.
-/
namespace HeapPressure.Json

variable {t : Tree} {first : Bool} {v : Value} {items : Items} {members : Members}
  {cs w rest : List Char}

theorem eq_append_of_dropWord? {word : List Char} (h : dropWord? word cs = some rest) :
    cs = word ++ rest := by
  fun_induction dropWord? word cs with
  | case1 cs => cases h; rfl
  | case2 w ws c cs hw ih => rw [List.cons_append, ← ih h, beq_iff_eq.mp hw]
  | case3 => cases h
  | case4 => cases h

theorem writes_of_keyword {word : String} (t : Tree) (hword : word.toList = w)
    (hw : Writes (.tree t) w) (h : keyword word t.value cs = (v, rest))
    (hs : v.isSound = true) : ∃ t w, v = t.value ∧ cs = w ++ rest ∧ Writes (.tree t) w := by
  unfold keyword at h
  split at h
  · next hdrop =>
    cases h
    exact ⟨t, w, rfl, hword ▸ eq_append_of_dropWord? hdrop, hw⟩
  · cases h
    cases hs

theorem writes_of_scalar_number {negative : Bool}
    (h : scalar .number (scanNumber negative cs) = (v, rest)) (hs : v.isSound = true) :
    ∃ t w, v = t.value ∧ signChars negative ++ cs = w ++ rest ∧ Writes (.tree t) w := by
  unfold scalar at h
  split at h
  · next n rest hscan =>
    cases h
    obtain ⟨hn, w, hcs, hw⟩ := writesUnsigned_of_scanNumber hscan
    exact ⟨.number n, _, rfl, by rw [hcs, hn, List.append_assoc], .number hw⟩
  · cases h
    cases hs

theorem writes_of_scalar_string
    (h : scalar (fun ps => .string (textOfPieces ps)) (scanString cs) = (v, rest))
    (hs : v.isSound = true) :
    ∃ t w, v = t.value ∧ '\"' :: cs = w ++ rest ∧ Writes (.tree t) w := by
  unfold scalar at h
  split at h
  · next ps rest hscan =>
    cases h
    obtain ⟨s, hps⟩ := Option.isSome_iff_exists.mp hs
    obtain ⟨w, rfl, hw⟩ := scanString_iff.mp ⟨ps, hscan, hps⟩
    exact ⟨.string s, _, congrArg Value.string hps, by simp, .string hw⟩
  · cases h
    cases hs

/-- All the ways in which items are read without a fault. -/
theorem readItems_cases {fuel : Nat} (h : readItems (fuel + 1) first cs = (items, rest))
    (hs : items.isSound = true) :
    items = .close ∧ cs = ']' :: rest ∨
    ∃ sep cs' v tail more, Separates first sep ∧ cs = sep ++ cs' ∧ readValue fuel cs' = (v, tail) ∧
      readItems fuel false (skipBlanks tail) = (more, rest) ∧ items = .cons v more := by
  unfold readItems at h
  split at h
  · cases h
    cases hs
  · cases h
    exact .inl ⟨rfl, rfl⟩
  · next c cs _ =>
    refine .inr ?_
    split at h
    · next hfirst =>
      cases h
      rw [hfirst]
      exact ⟨[], _, _, _, _, rfl, rfl, rfl, rfl, rfl⟩
    · next hfirst =>
      rw [Bool.eq_false_iff.mpr hfirst]
      obtain ⟨bs, hb, hbs⟩ := exists_blank cs
      split at h
      · next hc =>
        rw [beq_iff_eq.mp hc]
        have hsep : Separates false (',' :: bs) := ⟨bs, hb, rfl⟩
        split at h
        · cases h
          cases hs
        · cases h
          cases hs
        · cases h
          exact ⟨_, _, _, _, _, hsep, by rw [List.cons_append, ← hbs], rfl, rfl, rfl⟩
      · cases h
        cases hs

/-- A member is read without a fault in one way only. -/
theorem readMember_cases {fuel : Nat} (h : readMember fuel cs = (members, rest))
    (hs : members.isSound = true) :
    ∃ key k b cs' v tail more, WritesChars key.toList k ∧ Blank b ∧
      cs = '\"' :: (k ++ '\"' :: (b ++ ':' :: cs')) ∧
      readValue fuel (skipBlanks cs') = (v, tail) ∧
      readMembers fuel false (skipBlanks tail) = (more, rest) ∧
      members = .cons (some key) v more := by
  unfold readMember at h
  split at h
  · split at h
    · cases h
      cases hs
    · next ps cs' hscan =>
      obtain ⟨b, hb, hbs⟩ := exists_blank cs'
      split at h
      · next cs'' hcolon =>
        cases h
        simp only [Members.isSound, Bool.and_eq_true] at hs
        obtain ⟨key, hkey⟩ := Option.isSome_iff_exists.mp hs.1.1
        obtain ⟨k, rfl, hk⟩ := scanString_iff.mp ⟨ps, hscan, hkey⟩
        refine ⟨key, k, b, cs'', _, _, _, hk, hb, ?_, rfl, rfl, by rw [hkey]⟩
        rw [← hcolon, ← hbs]
      · cases h
        simp [Members.isSound, Value.isSound] at hs
  · cases h
    cases hs

/-- All the ways in which members are read without a fault. -/
theorem readMembers_cases {fuel : Nat} (h : readMembers (fuel + 1) first cs = (members, rest))
    (hs : members.isSound = true) :
    members = .close ∧ cs = '\x7d' :: rest ∨
    ∃ sep cs', Separates first sep ∧ cs = sep ++ cs' ∧ readMember fuel cs' = (members, rest) := by
  cases cs with
  | nil =>
    cases h
    cases hs
  | cons c cs =>
    by_cases hc : c = '\x7d'
    · subst hc
      cases h
      exact .inl ⟨rfl, rfl⟩
    rw [readMembers_cons fuel first hc] at h
    refine .inr ?_
    split at h
    · next hfirst =>
      rw [hfirst]
      exact ⟨[], _, rfl, rfl, h⟩
    · next hfirst =>
      rw [Bool.eq_false_iff.mpr hfirst]
      obtain ⟨bs, hb, hbs⟩ := exists_blank cs
      split at h
      · next hcomma =>
        rw [beq_iff_eq.mp hcomma]
        exact ⟨',' :: bs, _, ⟨bs, hb, rfl⟩, by rw [List.cons_append, ← hbs], h⟩
      · cases h
        cases hs

mutual

/-- What is read without a fault was written, and the reader stops where it ends. -/
theorem writes_of_readValue : (fuel : Nat) → {cs rest : List Char} → {v : Value} →
    readValue fuel cs = (v, rest) → v.isSound = true →
    ∃ t w, v = t.value ∧ cs = w ++ rest ∧ Writes (.tree t) w
  | 0, _, _, _, h, hs => by
    cases h
    cases hs
  | fuel + 1, cs, rest, v, h, hs => by
    unfold readValue at h
    split at h
    · cases h
      cases hs
    · exact writes_of_scalar_string h hs
    · next cs =>
      cases h
      obtain ⟨ts, w, hts, hcs, hw⟩ := writes_of_readItems fuel rfl hs
      obtain ⟨bs, hb, hbs⟩ := exists_blank cs
      refine ⟨.array ts, _, by rw [Tree.value, hts], ?_, .array hb hw⟩
      rw [List.cons_append, List.append_assoc, ← hcs, ← hbs]
    · next cs =>
      cases h
      obtain ⟨ms, w, hms, hcs, hw⟩ := writes_of_readMembers fuel rfl hs
      obtain ⟨bs, hb, hbs⟩ := exists_blank cs
      refine ⟨.object ms, _, by rw [Tree.value, hms], ?_, .object hb hw⟩
      rw [List.cons_append, List.append_assoc, ← hcs, ← hbs]
    · exact writes_of_scalar_number h hs
    · exact writes_of_keyword .null (by decide) .null h hs
    · exact writes_of_keyword (.boolean true) (by decide) .truth h hs
    · exact writes_of_keyword (.boolean false) (by decide) .falsehood h hs
    · split at h
      · exact writes_of_scalar_number h hs
      · cases h
        cases hs

theorem writes_of_readItems : (fuel : Nat) → {first : Bool} → {cs rest : List Char} →
    {items : Items} → readItems fuel first cs = (items, rest) → items.isSound = true →
    ∃ ts w, items = Tree.itemsOf ts ∧ cs = w ++ rest ∧ Writes (.items first ts) w
  | 0, _, _, _, _, h, hs => by
    cases h
    cases hs
  | fuel + 1, first, cs, rest, items, h, hs => by
    obtain ⟨rfl, rfl⟩ | ⟨sep, cs', v, tail, more, hsep, rfl, hv, hmore, rfl⟩ :=
      readItems_cases h hs
    · exact ⟨[], _, rfl, rfl, .endItems first⟩
    · simp only [Items.isSound, Bool.and_eq_true] at hs
      obtain ⟨t, w, rfl, rfl, hw⟩ := writes_of_readValue fuel hv hs.1
      obtain ⟨ts, ws, rfl, hws, hts⟩ := writes_of_readItems fuel hmore hs.2
      obtain ⟨b, hb, hbs⟩ := exists_blank tail
      refine ⟨t :: ts, _, rfl, ?_, .item hsep hw hb hts⟩
      rw [List.append_assoc, List.append_assoc, List.append_assoc, ← hws, ← hbs]

theorem writes_of_readMembers : (fuel : Nat) → {first : Bool} → {cs rest : List Char} →
    {members : Members} → readMembers fuel first cs = (members, rest) → members.isSound = true →
    ∃ ms w, members = Tree.membersOf ms ∧ cs = w ++ rest ∧ Writes (.members first ms) w
  | 0, _, _, _, _, h, hs => by
    cases h
    cases hs
  | fuel + 1, first, cs, rest, members, h, hs => by
    obtain ⟨rfl, rfl⟩ | ⟨sep, cs', hsep, rfl, h'⟩ := readMembers_cases h hs
    · exact ⟨[], _, rfl, rfl, .endMembers first⟩
    · obtain ⟨key, k, b₁, cs', v, tail, more, hk, h₁, rfl, hv, hmore, rfl⟩ :=
        readMember_cases h' hs
      simp only [Members.isSound, Bool.and_eq_true] at hs
      obtain ⟨t, w, rfl, hcs', hw⟩ := writes_of_readValue fuel hv hs.1.2
      obtain ⟨ms, ws, rfl, hws, hms⟩ := writes_of_readMembers fuel hmore hs.2
      obtain ⟨b₂, h₂, hbs₂⟩ := exists_blank cs'
      obtain ⟨b₃, h₃, hbs₃⟩ := exists_blank tail
      refine ⟨(key, t) :: ms, _, rfl, ?_, .member hsep hk h₁ h₂ h₃ hw hms⟩
      rw [hbs₂, hcs', hbs₃, hws]
      simp

end

mutual

theorem Tree.isSound_value : (t : Tree) → t.value.isSound = true
  | .null | .boolean _ | .number _ | .string _ => rfl
  | .array ts => Tree.isSound_itemsOf ts
  | .object ms => Tree.isSound_membersOf ms

theorem Tree.isSound_itemsOf : (ts : List Tree) → (Tree.itemsOf ts).isSound = true
  | [] => rfl
  | t :: ts => Bool.and_eq_true_iff.mpr ⟨t.isSound_value, Tree.isSound_itemsOf ts⟩

theorem Tree.isSound_membersOf : (ms : List (String × Tree)) →
    (Tree.membersOf ms).isSound = true
  | [] => rfl
  | (_, t) :: ms => Bool.and_eq_true_iff.mpr ⟨t.isSound_value, Tree.isSound_membersOf ms⟩

end

mutual

theorem Tree.isWhole_value : (t : Tree) → t.value.isWhole = true
  | .null | .boolean _ | .number _ | .string _ => rfl
  | .array ts => Tree.isWhole_itemsOf ts
  | .object ms => Tree.isWhole_membersOf ms

theorem Tree.isWhole_itemsOf : (ts : List Tree) → (Tree.itemsOf ts).isWhole = true
  | [] => rfl
  | t :: ts => Bool.and_eq_true_iff.mpr ⟨t.isWhole_value, Tree.isWhole_itemsOf ts⟩

theorem Tree.isWhole_membersOf : (ms : List (String × Tree)) →
    (Tree.membersOf ms).isWhole = true
  | [] => rfl
  | (_, t) :: ms => Bool.and_eq_true_iff.mpr ⟨t.isWhole_value, Tree.isWhole_membersOf ms⟩

end

mutual

theorem Tree.value_inj : (t u : Tree) → t.value = u.value → t = u
  | .null, .null, _ => rfl
  | .boolean _, .boolean _, h => congrArg Tree.boolean (Value.boolean.inj h)
  | .number _, .number _, h => congrArg Tree.number (Value.number.inj h)
  | .string _, .string _, h => congrArg Tree.string (Option.some.inj (Value.string.inj h))
  | .array ts, .array us, h => congrArg Tree.array (Tree.itemsOf_inj ts us (Value.array.inj h))
  | .object ms, .object ns, h =>
    congrArg Tree.object (Tree.membersOf_inj ms ns (Value.object.inj h))

theorem Tree.itemsOf_inj : (ts us : List Tree) → Tree.itemsOf ts = Tree.itemsOf us → ts = us
  | [], [], _ => rfl
  | t :: ts, u :: us, h => by
    obtain ⟨ht, hts⟩ := Items.cons.inj h
    rw [Tree.value_inj t u ht, Tree.itemsOf_inj ts us hts]

theorem Tree.membersOf_inj : (ms ns : List (String × Tree)) →
    Tree.membersOf ms = Tree.membersOf ns → ms = ns
  | [], [], _ => rfl
  | (key, t) :: ms, (key', u) :: ns, h => by
    obtain ⟨hkey, ht, hms⟩ := Members.cons.inj h
    rw [Option.some.inj hkey, Tree.value_inj t u ht, Tree.membersOf_inj ms ns hms]

end

/-- A text is read without a fault exactly when it spells a tree, and then as that tree. -/
theorem spells_iff_read {text : String} : Spells t text ↔ read text = ⟨t.value, false⟩ := by
  refine ⟨Spells.read, fun h => ?_⟩
  obtain ⟨b₁, h₁, hb₁⟩ := exists_blank text.toList
  simp only [Json.read, Text.mk.injEq, Bool.not_eq_false', List.isEmpty_iff] at h
  obtain ⟨hv, htrailing⟩ := h
  obtain ⟨u, w, hu, hw, hwrites⟩ :=
    writes_of_readValue _ (Prod.ext hv rfl) (t.isSound_value)
  obtain ⟨b₂, h₂, hb₂⟩ := exists_blank
    (readValue (2 * (skipBlanks text.toList).length + 2) (skipBlanks text.toList)).2
  obtain rfl := Tree.value_inj t u hu
  rw [htrailing, List.append_nil] at hb₂
  exact ⟨b₁, b₂, w, h₁, h₂, hwrites, by rw [← hb₂, ← hw, ← hb₁]⟩

/-- No text spells two trees. -/
theorem Spells.unique {u : Tree} {text : String} (h : Spells t text) (h' : Spells u text) :
    t = u :=
  Tree.value_inj t u (congrArg Text.value (h.read.symm.trans h'.read))

end HeapPressure.Json
