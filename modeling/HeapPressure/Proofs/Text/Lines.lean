import Mathlib.Data.List.Infix

/-!
Texts of lines around one part that may hold anything. The lines are found from both ends, so the
part between them is found too.
-/
namespace HeapPressure.Text

/-- Lines in front of a text. -/
def below : List (List Char) → List Char → List Char
  | [], t => t
  | l :: ls, t => l ++ '\n' :: below ls t

/-- Lines behind a text. -/
def above (t : List Char) : List (List Char) → List Char
  | [] => t
  | l :: ls => above (t ++ '\n' :: l) ls

variable {xs ys rs ss t t' : List Char} {ls ls' : List (List Char)} {c : Char}

theorem append_cons_inj (hx : c ∉ xs) (hy : c ∉ ys) (h : xs ++ c :: rs = ys ++ c :: ss) :
    xs = ys ∧ rs = ss := by
  induction xs generalizing ys with
  | nil =>
    cases ys with
    | nil => exact ⟨rfl, (List.cons.inj h).2⟩
    | cons y ys =>
      have hc : c = y := (List.cons.inj h).1
      exact absurd (hc ▸ List.mem_cons_self) hy
  | cons x xs ih =>
    cases ys with
    | nil =>
      have hc : x = c := (List.cons.inj h).1
      exact absurd (hc ▸ List.mem_cons_self) hx
    | cons y ys =>
      obtain ⟨rfl, htail⟩ := List.cons.inj h
      obtain ⟨rfl, hrest⟩ :=
        ih (fun hc => hx (List.mem_cons_of_mem x hc)) (fun hc => hy (List.mem_cons_of_mem x hc))
          htail
      exact ⟨rfl, hrest⟩

theorem append_cons_inj_last (hr : c ∉ rs) (hs : c ∉ ss) (h : xs ++ c :: rs = ys ++ c :: ss) :
    xs = ys ∧ rs = ss := by
  have hrev : rs.reverse ++ c :: xs.reverse = ss.reverse ++ c :: ys.reverse := by
    simpa using congrArg List.reverse h
  have hr' : c ∉ rs.reverse := by simpa using hr
  have hs' : c ∉ ss.reverse := by simpa using hs
  obtain ⟨hrs, hxy⟩ := append_cons_inj hr' hs' hrev
  exact ⟨List.reverse_inj.mp hxy, List.reverse_inj.mp hrs⟩

theorem below_inj (hls : ∀ l ∈ ls, '\n' ∉ l) (hls' : ∀ l ∈ ls', '\n' ∉ l)
    (hlength : ls.length = ls'.length) (h : below ls t = below ls' t') : ls = ls' ∧ t = t' := by
  induction ls generalizing ls' with
  | nil =>
    obtain rfl : ls' = [] := List.eq_nil_of_length_eq_zero hlength.symm
    exact ⟨rfl, h⟩
  | cons l ls ih =>
    cases ls' with
    | nil => cases hlength
    | cons l' ls' =>
      obtain ⟨hl, hrest⟩ := List.forall_mem_cons.mp hls
      obtain ⟨hl', hrest'⟩ := List.forall_mem_cons.mp hls'
      obtain ⟨rfl, htail⟩ := append_cons_inj hl hl' h
      obtain ⟨rfl, ht⟩ := ih hrest hrest' (Nat.succ.inj hlength) htail
      exact ⟨rfl, ht⟩

theorem above_inj (hls : ∀ l ∈ ls, '\n' ∉ l) (hls' : ∀ l ∈ ls', '\n' ∉ l)
    (hlength : ls.length = ls'.length) (h : above t ls = above t' ls') : ls = ls' ∧ t = t' := by
  induction ls generalizing ls' t t' with
  | nil =>
    obtain rfl : ls' = [] := List.eq_nil_of_length_eq_zero hlength.symm
    exact ⟨rfl, h⟩
  | cons l ls ih =>
    cases ls' with
    | nil => cases hlength
    | cons l' ls' =>
      obtain ⟨hl, hrest⟩ := List.forall_mem_cons.mp hls
      obtain ⟨hl', hrest'⟩ := List.forall_mem_cons.mp hls'
      obtain ⟨rfl, hlast⟩ := ih hrest hrest' (Nat.succ.inj hlength) h
      obtain ⟨ht, rfl⟩ := append_cons_inj_last hl hl' hlast
      exact ⟨rfl, ht⟩

/-- Between two places of a mark nothing can stand, unless the mark stands in it. -/
theorem eq_nil_of_mark {mark as : List Char} (hmark : '\n' ∉ mark)
    (hxs : ¬ '\n' :: mark <:+: xs ++ as)
    (h : '\n' :: (mark ++ rs) = as ++ '\n' :: (mark ++ ss)) : as = [] := by
  cases as with
  | nil => rfl
  | cons a as =>
    obtain ⟨rfl, htail⟩ := List.cons.inj h
    have hin : mark <+: as := by
      rcases List.append_eq_append_iff.mp htail with ⟨bs, has, -⟩ | ⟨bs, hmarks, hbs⟩
      · exact ⟨bs, has.symm⟩
      · -- the mark would hold the line end of its second place
        cases bs with
        | nil => exact ⟨[], by simpa using hmarks⟩
        | cons b bs =>
          obtain ⟨rfl, -⟩ := List.cons.inj hbs
          exact absurd (hmarks ▸ List.mem_append_right as List.mem_cons_self) hmark
    obtain ⟨bs, rfl⟩ := hin
    exact absurd ⟨xs, bs, by simp⟩ hxs

/-- A mark at the start of a line splits a text in one way only, if it stands nowhere in the first
part. -/
theorem mark_inj {mark : List Char} (hmark : '\n' ∉ mark) (hx : ¬ '\n' :: mark <:+: xs)
    (hy : ¬ '\n' :: mark <:+: ys)
    (h : xs ++ '\n' :: (mark ++ rs) = ys ++ '\n' :: (mark ++ ss)) : xs = ys ∧ rs = ss := by
  rcases List.append_eq_append_iff.mp h with ⟨as, rfl, has⟩ | ⟨as, rfl, has⟩
  · obtain rfl := eq_nil_of_mark hmark hy has
    exact ⟨(List.append_nil xs).symm, List.append_cancel_left (List.cons.inj has).2⟩
  · obtain rfl := eq_nil_of_mark hmark hx has
    exact ⟨List.append_nil ys, (List.append_cancel_left (List.cons.inj has).2).symm⟩

end HeapPressure.Text
