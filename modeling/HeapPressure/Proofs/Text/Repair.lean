import HeapPressure.Proofs.Text.Utf8
import Mathlib.Data.Nat.Find

/-!
Any bytes read as text: runs of whole characters stay as they are, and what stands between two of
them is replaced part by part. The parts are told by the standard encoding alone.
-/
namespace HeapPressure.Text.Utf8

/-- The bytes of characters. -/
def bytesOf (cs : List Char) : List UInt8 := cs.flatMap String.utf8EncodeChar

/-- No character stands at the front of `bad ++ rest`, and `bad` is as much of the front as a
character can begin with, or one byte that begins none. -/
structure IllFormed (bad rest : List UInt8) : Prop where
  nonempty : bad ≠ []
  stands : ∀ c, ¬ String.utf8EncodeChar c <+: bad ++ rest
  begins : bad.length = 1 ∨ ∃ c, bad <+: String.utf8EncodeChar c
  longest : ∀ more, more ≠ [] → more <+: rest → ∀ c, ¬ bad ++ more <+: String.utf8EncodeChar c

/-- A text that repairs bytes: every longest run of characters unchanged and in its place, and
one replacement character for each ill-formed part between two of them. -/
inductive Repairs : List UInt8 → List Char → Prop where
  | valid (run : List Char) : Repairs (bytesOf run) run
  | broken (run : List Char) {bad rest : List UInt8} {text : List Char} (h : IllFormed bad rest)
      (hrest : Repairs rest text) :
      Repairs (bytesOf run ++ (bad ++ rest)) (run ++ replacement :: text)

variable {bytes bad rest part : List UInt8} {text cs kept : List Char} {c d : Char} {n : Nat}

@[simp] theorem bytesOf_nil : bytesOf [] = [] := rfl

@[simp] theorem bytesOf_cons (c : Char) (cs : List Char) :
    bytesOf (c :: cs) = String.utf8EncodeChar c ++ bytesOf cs := List.flatMap_cons

@[simp] theorem bytesOf_append (cs ds : List Char) :
    bytesOf (cs ++ ds) = bytesOf cs ++ bytesOf ds :=
  List.flatMap_append

theorem length_utf8EncodeChar_pos (c : Char) : 0 < (String.utf8EncodeChar c).length := by
  rw [String.length_utf8EncodeChar]
  exact c.utf8Size_pos

theorem lossy_bytesOf (cs : List Char) (rest : List UInt8) :
    lossy (bytesOf cs ++ rest) = cs ++ lossy rest := by
  induction cs with
  | nil => rfl
  | cons c cs ih =>
    rw [bytesOf_cons, List.append_assoc, lossy_char, ih]
    rfl

/-- No character's bytes begin with another's. -/
theorem eq_of_isPrefix (h : String.utf8EncodeChar c <+: String.utf8EncodeChar d) : c = d := by
  obtain ⟨rest, hrest⟩ := h
  have hc : lossy (String.utf8EncodeChar d) = c :: lossy rest := by
    rw [← hrest, lossy_char]
  have hd : lossy (String.utf8EncodeChar d) = [d] := by
    simpa using lossy_char d []
  exact (List.cons.inj (hc.symm.trans hd)).1

theorem IllFormed.lossy_eq (h : IllFormed bad rest) :
    lossy (bad ++ rest) = replacement :: lossy rest := by
  obtain ⟨hne, hstands, hbegins, hlongest⟩ := h
  cases bad with
  | nil => exact absurd rfl hne
  | cons b bs =>
    have hwhole (more : List UInt8) (hmore : more <+: rest) (c : Char) :
        (lead b).after (bs ++ more) ≠ .whole c := by
      intro hc
      refine hstands c ?_
      rw [after_eq_whole_iff.mp hc]
      exact (List.prefix_append_right_inj (b :: bs)).mpr hmore
    cases hl : (lead b).after bs with
    | whole c => exact absurd hl (by simpa using hwhole [] List.nil_prefix c)
    | begins o =>
      rw [lossy_begun hl]
      cases rest with
      | nil => rfl
      | cons d rest =>
        have hd : [d] <+: d :: rest := List.prefix_append [d] rest
        have hpush : (Lead.begins o).push d = (lead b).after (bs ++ [d]) := by
          rw [after_append, hl]
          rfl
        rw [lossyFrom_cons, hpush]
        cases hafter : (lead b).after (bs ++ [d]) with
        | whole c => exact absurd hafter (hwhole [d] hd c)
        | begins o' =>
          obtain ⟨c, hc⟩ := isPrefix_of_begins hafter
          exact absurd hc (hlongest [d] (List.cons_ne_nil d []) hd c)
        | stray => rfl
    | stray =>
      rcases hbegins with hone | ⟨c, hc⟩
      · obtain rfl : bs = [] := List.eq_nil_of_length_eq_zero (Nat.succ.inj hone)
        have hlead : lead b = .stray := hl
        rw [List.cons_append, lossy_cons, hlead]
        rfl
      · -- a stray byte stands at the front of no character
        have hneq : b :: bs ≠ String.utf8EncodeChar c := by
          intro heq
          exact hstands c (heq ▸ List.prefix_append (b :: bs) rest)
        obtain ⟨o, ho⟩ := begins_of_isPrefix hc hneq
        cases hl.symm.trans ho

theorem Repairs.lossy_eq (h : Repairs bytes text) : lossy bytes = text := by
  induction h with
  | valid run => simpa [lossy, lossyFrom] using lossy_bytesOf run []
  | broken run h _ ih => rw [lossy_bytesOf, h.lossy_eq, ih]

theorem Repairs.cons (h : Repairs rest text) (c : Char) :
    Repairs (String.utf8EncodeChar c ++ rest) (c :: text) := by
  cases h with
  | valid =>
    have := Repairs.valid (c :: text)
    rwa [bytesOf_cons] at this
  | broken run h hrest =>
    have := Repairs.broken (c :: run) h hrest
    rwa [bytesOf_cons, List.append_assoc] at this

theorem exists_illFormed (hne : bytes ≠ []) (h : ∀ c, ¬ String.utf8EncodeChar c <+: bytes) :
    ∃ bad rest, bytes = bad ++ rest ∧ IllFormed bad rest := by
  classical
  let P (n : Nat) : Prop := n = 1 ∨ ∃ c, bytes.take n <+: String.utf8EncodeChar c
  have hlength : 1 ≤ bytes.length := List.length_pos_iff.mpr hne
  have hspec : P (Nat.findGreatest P bytes.length) := Nat.findGreatest_spec hlength (.inl rfl)
  have hpos : 1 ≤ Nat.findGreatest P bytes.length := Nat.le_findGreatest hlength (.inl rfl)
  have hle : Nat.findGreatest P bytes.length ≤ bytes.length := Nat.findGreatest_le _
  have hmax (k : Nat) (hk : Nat.findGreatest P bytes.length < k) (hkle : k ≤ bytes.length) :
      ¬ P k := Nat.findGreatest_is_greatest hk hkle
  generalize Nat.findGreatest P bytes.length = n at hspec hpos hle hmax
  have htake : (bytes.take n).length = n := List.length_take_of_le hle
  refine ⟨bytes.take n, bytes.drop n, (List.take_append_drop n bytes).symm, ?_, ?_, ?_, ?_⟩
  · exact List.ne_nil_of_length_pos (by omega)
  · rwa [List.take_append_drop]
  · exact hspec.imp (fun hone => htake.trans hone) id
  · intro more hmore hprefix c hc
    have hk : bytes.take n ++ more = bytes.take (n + more.length) := by
      have := (List.prefix_append_right_inj (bytes.take n)).mpr hprefix
      rw [List.take_append_drop, List.prefix_iff_eq_take, List.length_append, htake] at this
      exact this
    have hlong : n + more.length ≤ bytes.length := by
      have := hprefix.length_le
      rw [List.length_drop] at this
      omega
    have hmorepos := List.length_pos_iff.mpr hmore
    exact hmax (n + more.length) (by omega) hlong (.inr ⟨c, hk ▸ hc⟩)

theorem exists_repairs (bytes : List UInt8) : ∃ text, Repairs bytes text := by
  generalize hn : bytes.length = n
  induction n using Nat.strongRecOn generalizing bytes with
  | ind n ih =>
    by_cases hne : bytes = []
    · exact ⟨[], hne ▸ .valid []⟩
    by_cases h : ∃ c, String.utf8EncodeChar c <+: bytes
    · obtain ⟨c, rest, rfl⟩ := h
      have hc := length_utf8EncodeChar_pos c
      rw [List.length_append] at hn
      obtain ⟨text, htext⟩ := ih rest.length (by omega) rest rfl
      exact ⟨c :: text, htext.cons c⟩
    · obtain ⟨bad, rest, rfl, hbad⟩ := exists_illFormed hne (not_exists.mp h)
      have hpos := List.length_pos_iff.mpr hbad.nonempty
      rw [List.length_append] at hn
      obtain ⟨text, htext⟩ := ih rest.length (by omega) rest rfl
      exact ⟨replacement :: text, .broken [] hbad htext⟩

/-- There is one text that repairs any bytes, and the decoder finds it. -/
theorem repairs_iff : Repairs bytes text ↔ lossy bytes = text := by
  constructor
  · exact Repairs.lossy_eq
  · intro h
    obtain ⟨text', htext⟩ := exists_repairs bytes
    rw [← h, htext.lossy_eq]
    exact htext

theorem length_le_length_bytesOf (cs : List Char) : cs.length ≤ (bytesOf cs).length := by
  induction cs with
  | nil => exact Nat.le_refl _
  | cons c cs ih =>
    have := length_utf8EncodeChar_pos c
    rw [bytesOf_cons, List.length_append, List.length_cons]
    omega

/-- A byte makes one character at most, and no more than the three bytes of a replacement. -/
theorem Repairs.length_le (h : Repairs bytes text) :
    text.length ≤ bytes.length ∧ (bytesOf text).length ≤ 3 * bytes.length := by
  induction h with
  | valid run =>
    have := length_le_length_bytesOf run
    omega
  | broken run h _ ih =>
    have hrun := length_le_length_bytesOf run
    have hbad := List.length_pos_iff.mpr h.nonempty
    have hreplacement : (String.utf8EncodeChar replacement).length = 3 := rfl
    simp only [bytesOf_append, bytesOf_cons, List.length_append, List.length_cons, hreplacement]
    omega

/-- The characters at the front that end at or before a place among the bytes. -/
structure LongestWithin (n : Nat) (kept cs : List Char) : Prop where
  front : kept <+: cs
  fits : (bytesOf kept).length ≤ n
  longest : ∀ more, more <+: cs → (bytesOf more).length ≤ n → more <+: kept

/-- The place falls strictly inside a character. -/
def Inside (n : Nat) (cs : List Char) : Prop :=
  ∃ before c after, cs = before ++ c :: after ∧ (bytesOf before).length < n ∧
    n < (bytesOf (before ++ [c])).length

theorem LongestWithin.cons (h : LongestWithin n kept cs) (c : Char) :
    LongestWithin ((String.utf8EncodeChar c).length + n) (c :: kept) (c :: cs) := by
  refine ⟨(List.cons_prefix_cons).mpr ⟨rfl, h.front⟩, ?_, ?_⟩
  · have := h.fits
    rw [bytesOf_cons, List.length_append]
    omega
  · intro more hmore hfits
    cases more with
    | nil => exact List.nil_prefix
    | cons d more =>
      obtain ⟨rfl, hfront⟩ := List.cons_prefix_cons.mp hmore
      rw [bytesOf_cons, List.length_append] at hfits
      exact List.cons_prefix_cons.mpr ⟨rfl, h.longest more hfront (by omega)⟩

theorem inside_cons_iff : Inside n (c :: cs) ↔
    0 < n ∧ n < (String.utf8EncodeChar c).length ∨
      ∃ m, n = (String.utf8EncodeChar c).length + m ∧ Inside m cs := by
  constructor
  · intro h
    obtain ⟨before, d, after, hcs, hbefore, hn⟩ := h
    cases before with
    | nil =>
      cases hcs
      exact .inl ⟨hbefore, by simpa using hn⟩
    | cons e before =>
      cases hcs
      simp only [List.cons_append, bytesOf_cons, List.length_append] at hbefore hn
      refine .inr ⟨n - (String.utf8EncodeChar c).length, by omega, before, d, after, rfl, ?_, ?_⟩
      · omega
      · omega
  · intro h
    rcases h with ⟨hpos, hlt⟩ | ⟨m, rfl, before, d, after, rfl, hbefore, hm⟩
    · exact ⟨[], c, cs, rfl, hpos, by simpa using hlt⟩
    · refine ⟨c :: before, d, after, rfl, ?_, ?_⟩
      · rw [bytesOf_cons, List.length_append]
        omega
      · rw [List.cons_append, bytesOf_cons, List.length_append]
        omega

/-- A character that is cut short is one ill-formed part. -/
theorem illFormed_of_cut (hne : part ≠ []) (h : part <+: String.utf8EncodeChar c)
    (hlt : part.length < (String.utf8EncodeChar c).length) : IllFormed part [] := by
  refine ⟨hne, ?_, .inr ⟨c, h⟩, ?_⟩
  · intro d hd
    rw [List.append_nil] at hd
    have hdc := eq_of_isPrefix (hd.trans h)
    have := hd.length_le
    rw [hdc] at this
    omega
  · intro more hmore hprefix
    exact absurd (List.prefix_nil.mp hprefix) hmore

/-- Bytes of characters, cut: the characters that fit and, when the cut falls inside the next
one, the part of it in front of the cut. -/
theorem exists_cut (n : Nat) (cs : List Char) :
    ∃ kept part, (bytesOf cs).take n = bytesOf kept ++ part ∧ LongestWithin n kept cs ∧
      (¬ Inside n cs ∧ part = [] ∨ Inside n cs ∧ IllFormed part []) := by
  induction cs generalizing n with
  | nil =>
    refine ⟨[], [], by simp, ⟨List.nil_prefix, Nat.zero_le n, fun _ h _ => h⟩, .inl ⟨?_, rfl⟩⟩
    intro h
    obtain ⟨before, c, after, hnil, -⟩ := h
    exact absurd hnil (by simp)
  | cons c cs ih =>
    by_cases hfits : (String.utf8EncodeChar c).length ≤ n
    · obtain ⟨m, rfl⟩ := Nat.exists_eq_add_of_le hfits
      obtain ⟨kept, part, htake, hlongest, hpart⟩ := ih m
      have hinside : Inside ((String.utf8EncodeChar c).length + m) (c :: cs) ↔ Inside m cs := by
        rw [inside_cons_iff]
        constructor
        · intro h
          rcases h with h | ⟨m', hm', h⟩
          · omega
          · rwa [Nat.add_left_cancel hm']
        · exact fun h => .inr ⟨m, rfl, h⟩
      refine ⟨c :: kept, part, ?_, hlongest.cons c, by rwa [hinside]⟩
      rw [bytesOf_cons, bytesOf_cons, List.take_length_add_append, htake, List.append_assoc]
    · have hlt : n < (String.utf8EncodeChar c).length := Nat.lt_of_not_le hfits
      have htake : (bytesOf (c :: cs)).take n = (String.utf8EncodeChar c).take n := by
        rw [bytesOf_cons, List.take_append_of_le_length (Nat.le_of_lt hlt)]
      refine ⟨[], (String.utf8EncodeChar c).take n, htake, ⟨List.nil_prefix, Nat.zero_le n, ?_⟩, ?_⟩
      · intro more hmore hwithin
        cases more with
        | nil => exact List.nil_prefix
        | cons d more =>
          obtain ⟨rfl, -⟩ := List.cons_prefix_cons.mp hmore
          rw [bytesOf_cons, List.length_append] at hwithin
          omega
      · by_cases hpos : 0 < n
        · refine .inr ⟨inside_cons_iff.mpr (.inl ⟨hpos, hlt⟩), ?_⟩
          have hlength : ((String.utf8EncodeChar c).take n).length = n :=
            List.length_take_of_le (Nat.le_of_lt hlt)
          refine illFormed_of_cut ?_ (List.take_prefix n _) (by omega)
          exact List.ne_nil_of_length_pos (by omega)
        · refine .inl ⟨?_, by simp [Nat.eq_zero_of_not_pos hpos]⟩
          intro h
          obtain ⟨_, _, _, _, hbefore, _⟩ := h
          omega

end HeapPressure.Text.Utf8
