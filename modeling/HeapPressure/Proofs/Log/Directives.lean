import HeapPressure.Log.Filter
import Mathlib.Data.List.Basic

/-!
Directives as they are written. A level is read as a directive for every target, and a target
with a level behind an equal sign as a directive for that target, whatever the target spells.
-/
namespace HeapPressure

namespace Text

theorem isBlank_of_isAlphanum {c : Char} (h : c.isAlphanum = true) : isBlank c = false := by
  have hcode : c.toNat < 128 := by
    delta Char.isAlphanum Char.isAlpha Char.isUpper Char.isLower Char.isDigit at h
    simp only [Bool.or_eq_true, Bool.and_eq_true, decide_eq_true_eq, ge_iff_le,
      UInt32.le_iff_toNat_le] at h
    have hz : 'z'.val.toNat = 122 := rfl
    have hZ : 'Z'.val.toNat = 90 := rfl
    have hnine : '9'.val.toNat = 57 := rfl
    change c.val.toNat < 128
    omega
  have hascii : ∀ n < 128, (Char.ofNat n).isAlphanum = true → isBlank (Char.ofNat n) = false := by
    decide
  have hc := hascii c.toNat hcode
  rw [Char.ofNat_toNat] at hc
  exact hc h

theorem dropWhile_isBlank {cs : List Char} (h : ∀ c ∈ cs.head?, isBlank c = false) :
    cs.dropWhile isBlank = cs := by
  cases cs with
  | nil => rfl
  | cons c cs => rw [List.dropWhile_cons_of_neg (by simp [h c rfl])]

/-- A text that has no blank at either end is left as it is. -/
theorem trim_eq_self {cs : List Char} (hfirst : ∀ c ∈ cs.head?, isBlank c = false)
    (hlast : ∀ c ∈ cs.getLast?, isBlank c = false) : trim cs = cs := by
  rw [trim, dropWhile_isBlank hfirst, dropWhile_isBlank (by rwa [List.head?_reverse]),
    List.reverse_reverse]

end Text

namespace Log

namespace Level

theorem label_inj {l l' : Level} (h : l.label = l'.label) : l = l' := by
  cases l <;> cases l' <;> first | rfl | exact absurd h (by decide)

theorem isAlphanum_of_mem_label {l : Level} {c : Char} (hc : c ∈ l.label.toList) :
    c.isAlphanum = true := by
  have hall : l.label.toList.all Char.isAlphanum = true := by
    cases l <;> decide
  exact List.all_eq_true.mp hall c hc

theorem comma_notMem_label (l : Level) : ',' ∉ l.label.toList := by
  intro hcomma
  exact absurd (isAlphanum_of_mem_label hcomma) (by decide)

theorem label_ne_nil (l : Level) : l.label.toList ≠ [] := by
  cases l <;> decide

end Level

namespace Directive

theorem levelOf?_label (l : Level) : levelOf? l.label.toList = some (some l) := by
  cases l <;> decide +kernel

theorem parse?_label (l : Level) : parse? l.label.toList = some (.ofLevel (some l)) := by
  cases l <;> decide +kernel

theorem foldl_utf8Size (n : Nat) (cs : List Char) :
    cs.foldl (fun n c => n + c.utf8Size) n = n + byteCount cs := by
  induction cs generalizing n with
  | nil => rfl
  | cons c cs ih =>
    have hcons : byteCount (c :: cs) = (0 + c.utf8Size) + byteCount cs := ih (0 + c.utf8Size)
    rw [List.foldl_cons, ih, hcons]
    omega

theorem byteCount_cons (c : Char) (cs : List Char) :
    byteCount (c :: cs) = c.utf8Size + byteCount cs := by
  rw [byteCount, List.foldl_cons, foldl_utf8Size, Nat.zero_add]

theorem byteCount_append (cs ds : List Char) :
    byteCount (cs ++ ds) = byteCount cs + byteCount ds := by
  rw [byteCount, List.foldl_append, foldl_utf8Size]
  rfl

theorem exists_utf8Size_add (c : Char) (n : Nat) : ∃ m, c.utf8Size + n = m + 1 := by
  have hpos := c.utf8Size_pos
  exact Nat.exists_eq_succ_of_ne_zero (by omega)

theorem dropBytes?_append (cs ds : List Char) : dropBytes? (cs ++ ds) (byteCount cs) = some ds := by
  induction cs with
  | nil => cases ds <;> rfl
  | cons c cs ih =>
    obtain ⟨n, hn⟩ := exists_utf8Size_add c (byteCount cs)
    rw [byteCount_cons, List.cons_append, hn, dropBytes?, if_pos (by omega), ← hn,
      Nat.add_sub_cancel_left, ih]
    omega

theorem takeBytes?_append (cs ds : List Char) : takeBytes? (cs ++ ds) (byteCount cs) = some cs := by
  induction cs with
  | nil => cases ds <;> rfl
  | cons c cs ih =>
    obtain ⟨n, hn⟩ := exists_utf8Size_add c (byteCount cs)
    rw [byteCount_cons, List.cons_append, hn, takeBytes?, if_pos (by omega), ← hn,
      Nat.add_sub_cancel_left, ih]
    · rfl
    · omega

/-- A text that is read as a target: it can begin a directive and holds no sign that ends the
target. -/
structure IsTarget (cs : List Char) : Prop where
  begins : ∃ c ∈ cs.head?, mayBegin c = true ∧ Text.isBlank c = false
  plain : ∀ c ∈ cs, c ≠ '=' ∧ c ≠ '['

variable {cs : List Char}

theorem IsTarget.trim_pair (h : IsTarget cs) (l : Level) :
    Text.trim (cs ++ '=' :: l.label.toList) = cs ++ '=' :: l.label.toList := by
  obtain ⟨c, hc, -, hblank⟩ := h.begins
  refine Text.trim_eq_self ?_ ?_
  · intro d hd
    rw [List.head?_append, Option.mem_def.mp hc] at hd
    simp at hd
    rwa [← hd]
  · intro d hd
    rw [List.getLast?_append_of_ne_nil _ (List.cons_ne_nil _ _),
      List.getLast?_cons_of_ne_nil l.label_ne_nil] at hd
    exact Text.isBlank_of_isAlphanum (Level.isAlphanum_of_mem_label (List.mem_of_getLast? hd))

theorem IsTarget.stops (h : IsTarget cs) (rest : List Char) :
    (cs ++ '=' :: rest).dropWhile (fun c => c != '=' && c != '[') = '=' :: rest := by
  rw [List.dropWhile_append_of_pos (by simpa using h.plain)]
  rfl

namespace Source

/-- A text without blanks around it, where the places of both texts are the same. -/
def whole (cs : List Char) : Source := ⟨cs, cs⟩

theorem trimmed_whole (cs : List Char) : (whole cs).trimmed = cs := rfl

theorem place_whole (as bs : List Char) : (whole (as ++ bs)).place bs = byteCount as := by
  rw [place, whole, byteCount_append, Nat.add_sub_cancel]

theorem end?_whole (as bs : List Char) : (whole (as ++ bs)).end? bs = some bs := by
  rw [end?, place_whole]
  exact dropBytes?_append as bs

theorem level?_whole (as : List Char) (l : Level) :
    (whole (as ++ l.label.toList)).level? l.label.toList = some (some l) := by
  rw [level?, end?_whole]
  simp [l.label_ne_nil, levelOf?_label]

theorem part?_whole (as bs : List Char) :
    (whole (as ++ bs)).part? (as ++ bs) bs = some (String.ofList as) := by
  have hstart : (whole (as ++ bs)).place (as ++ bs) = 0 := Nat.sub_self _
  rw [part?, hstart, place_whole, Nat.sub_zero]
  have hdrop : dropBytes? (as ++ bs) 0 = some (as ++ bs) := dropBytes?_append [] (as ++ bs)
  simp [whole, hdrop, takeBytes?_append]

end Source

/-- Whatever the target spells, the name of a level included. -/
theorem parse?_pair (h : IsTarget cs) (l : Level) :
    parse? (cs ++ '=' :: l.label.toList) = some ⟨some (String.ofList cs), none, none, some l⟩ := by
  have hlevel := Source.level?_whole (cs ++ ['=']) l
  rw [List.append_assoc, List.singleton_append] at hlevel
  rw [parse?, h.trim_pair]
  have hpart := Source.part?_whole cs ('=' :: l.label.toList)
  have hstops := h.stops l.label.toList
  obtain ⟨c, hc, hmay, -⟩ := h.begins
  obtain ⟨rest, rfl⟩ := List.head?_eq_some_iff.mp (Option.mem_def.mp hc)
  have hbracket : c ≠ '[' := (h.plain c List.mem_cons_self).2
  rw [List.cons_append] at hlevel hpart hstops ⊢
  change Source.directive? (Source.whole _) = _
  unfold Source.directive?
  split
  · next hnil => cases hnil
  · next hopen => exact absurd (List.cons.inj hopen).1 hbracket
  · next d ds _ hcons =>
    obtain ⟨rfl, -⟩ := List.cons.inj hcons
    rw [Source.trimmed_whole, hstops]
    simp [hmay, hpart, hlevel]

end Directive
end Log
end HeapPressure
