import HeapPressure.Proofs.Toml.Sound

/-!
Every document that is read is sound: scanners give integers of 64 bits only, and tables in
braces are put together as the others are.
-/
namespace HeapPressure.Toml

theorem fits_of_integer? {n : Int} {v : Scalar} (h : integer? n = some v) : v.Fits := by
  rw [integer?] at h
  split at h
  · next hn =>
    cases h
    exact hn
  · cases h

theorem fits_of_moment {cs rest : List Char} {v : Scalar} (h : moment cs = .found v rest) :
    v.Fits := by
  unfold moment at h
  dsimp only at h
  split at h
  · split at h
    · split at h
      · cases h
        trivial
      · cases h
    · cases h
  · split at h
    · split at h
      · cases h
        trivial
      · cases h
    · cases h

theorem fits_of_float_value {negative : Bool} {whole : List Char} {fraction : Option (List Char)}
    {e : Int} {cs rest : List Char} {v : Scalar}
    (h : float.value negative whole fraction e cs = .found v rest) : v.Fits := by
  have hfound {tooLarge : Bool} {x : Float}
      (hx : (if tooLarge then Attempt.illFormed else .found (.float x) cs) = .found v rest) :
      v.Fits := by
    split at hx
    · cases hx
    · cases hx
      trivial
  exact hfound h

theorem fits_of_float {cs rest : List Char} {v : Scalar} (h : float cs = .found v rest) :
    v.Fits := by
  unfold float at h
  dsimp only at h
  split at h
  · cases h
    trivial
  · cases h
    trivial
  · split at h
    · cases h
    · split at h
      · cases h
      · split at h
        · cases h
        · split at h
          · cases h
          · exact fits_of_float_value h
        · exact fits_of_float_value h

theorem fits_of_number {cs rest : List Char} {v : Scalar} (h : number cs = some (v, rest)) :
    v.Fits := by
  unfold number at h
  split at h
  · next hm =>
    cases h
    exact fits_of_moment hm
  · cases h
  · split at h
    · next hf =>
      cases h
      exact fits_of_float hf
    · cases h
    · obtain ⟨n, hn⟩ := integer_eq_some h
      exact fits_of_integer? hn

theorem eq_of_word {text : String} {v w : Scalar} {cs rest : List Char}
    (h : word text v cs = some (w, rest)) : w = v := by
  unfold word at h
  dsimp only at h
  split at h
  · cases h
    rfl
  · cases h

theorem fits_of_scalar {cs rest : List Char} {v : Scalar} (h : scalar cs = some (v, rest)) :
    v.Fits := by
  have hstring {o : Option (List Char × List Char)}
      (ho : (o.map fun r => (Scalar.string (String.ofList r.1), r.2)) = some (v, rest)) :
      v.Fits := by
    obtain ⟨r, -, hr⟩ := Option.map_eq_some_iff.mp ho
    cases hr
    trivial
  unfold scalar at h
  split at h
  · cases h
  · exact hstring h
  · exact hstring h
  · rw [eq_of_word h]
    trivial
  · rw [eq_of_word h]
    trivial
  · rw [eq_of_word h]
    trivial
  · rw [eq_of_word h]
    trivial
  · split at h
    · exact fits_of_number h
    · cases h

/-- Whatever is read with this much fuel is sound. -/
structure SoundWithin (fuel : Nat) : Prop where
  value {depth : Nat} {cs rest : List Char} {n : Node}
    (h : value fuel depth cs = some (n, rest)) : n.Sound
  items {depth : Nat} {cs rest : List Char} {ns : List Node}
    (h : arrayItems fuel depth cs = some (ns, rest)) : ∀ n ∈ ns, n.Sound
  pairs {depth : Nat} {cs rest : List Char} {t u : Table} (ht : t.Sound)
    (h : inlinePairs fuel depth t cs = some (u, rest)) : u.Sound

namespace SoundWithin

variable {fuel depth : Nat} {cs rest : List Char}

theorem value_succ (hf : SoundWithin fuel) {n : Node}
    (h : Toml.value (fuel + 1) depth cs = some (n, rest)) : n.Sound := by
  unfold Toml.value at h
  split at h
  · split at h
    · cases h
    · obtain ⟨⟨ns, rest⟩, hns, hn⟩ := Option.bind_eq_some_iff.mp h
      cases hn
      exact .array _ (hf.items hns)
  · split at h
    · cases h
    · obtain ⟨⟨t, rest⟩, ht, hn⟩ := Option.bind_eq_some_iff.mp h
      cases hn
      exact .inlined ((hf.pairs (.of_entries_nil rfl) ht).of_entries rfl)
  · obtain ⟨⟨v, rest⟩, hv, hn⟩ := Option.bind_eq_some_iff.mp h
    cases hn
    exact .leaf _ (fits_of_scalar hv)

theorem items_succ (hf : SoundWithin fuel) {ns : List Node}
    (h : arrayItems (fuel + 1) depth cs = some (ns, rest)) : ∀ n ∈ ns, n.Sound := by
  unfold arrayItems at h
  split at h
  · cases h
    simp
  · obtain ⟨⟨item, rest⟩, hitem, h⟩ := Option.bind_eq_some_iff.mp h
    dsimp only at h
    split at h
    · obtain ⟨⟨items, rest⟩, hitems, h⟩ := Option.bind_eq_some_iff.mp h
      cases h
      exact List.forall_mem_cons.mpr ⟨hf.value hitem, hf.items hitems⟩
    · cases h
      exact List.forall_mem_singleton.mpr (hf.value hitem)
    · cases h

theorem pairs_succ (hf : SoundWithin fuel) {t u : Table} (ht : t.Sound)
    (h : inlinePairs (fuel + 1) depth t cs = some (u, rest)) : u.Sound := by
  unfold inlinePairs at h
  split at h
  · cases h
    exact ht
  · obtain ⟨⟨⟨path, last⟩, rest⟩, -, h⟩ := Option.bind_eq_some_iff.mp h
    dsimp only at h
    split at h
    · obtain ⟨⟨n, rest⟩, hn, h⟩ := Option.bind_eq_some_iff.mp h
      obtain ⟨t', hset, h⟩ := Option.bind_eq_some_iff.mp h
      have ht' : t'.Sound := setDotted_sound (hf.value hn) ht hset
      dsimp only at h
      split at h
      · exact hf.pairs ht' h
      · cases h
        exact ht'
      · cases h
    · cases h

end SoundWithin

-- the readers of values, items and pairs call one another, each with less fuel
theorem soundWithin (fuel : Nat) : SoundWithin fuel := by
  induction fuel with
  | zero => exact ⟨nofun, nofun, nofun⟩
  | succ fuel ih => exact ⟨ih.value_succ, ih.items_succ, ih.pairs_succ⟩

theorem line_sound {cs rest : List Char} {l : Line} (h : line cs = some (some l, rest)) :
    l.Sound := by
  have hnone {o : Option (List Char)}
      (h : (o >>= fun rest => pure ((none : Option Line), rest)) = some (some l, rest)) :
      l.Sound := by
    cases o <;> cases h
  have hsome {m : Line} {o : Option (List Char)}
      (h : (o >>= fun rest => pure (some m, rest)) = some (some l, rest)) (hm : m.Sound) :
      l.Sound := by
    cases o with
    | none => cases h
    | some r =>
      cases h
      exact hm
  unfold line at h
  split at h
  · exact hnone h
  · cases h
  · exact hnone h
  · obtain ⟨⟨⟨path, last⟩, rest⟩, -, h⟩ := Option.bind_eq_some_iff.mp h
    dsimp only at h
    split at h
    · exact hsome h trivial
    · cases h
  · obtain ⟨⟨⟨path, last⟩, rest⟩, -, h⟩ := Option.bind_eq_some_iff.mp h
    dsimp only at h
    split at h
    · exact hsome h trivial
    · cases h
  · obtain ⟨⟨⟨path, last⟩, rest⟩, -, h⟩ := Option.bind_eq_some_iff.mp h
    dsimp only at h
    split at h
    · obtain ⟨⟨n, rest⟩, hn, h⟩ := Option.bind_eq_some_iff.mp h
      exact hsome h ((soundWithin _).value hn)
    · cases h

theorem lines_sound {fuel : Nat} {cs : List Char} {ls : List Line}
    (h : lines fuel cs = some ls) : ∀ l ∈ ls, l.Sound := by
  induction fuel generalizing cs ls with
  | zero =>
    rw [lines] at h
    split at h
    · cases h
      simp
    · cases h
  | succ fuel ih =>
    rw [lines] at h
    split at h
    · cases h
      simp
    · obtain ⟨⟨l, rest⟩, hl, h⟩ := Option.bind_eq_some_iff.mp h
      obtain ⟨ls', hls, h⟩ := Option.bind_eq_some_iff.mp h
      cases h
      intro m hm
      rcases List.mem_append.mp hm with hm | hm
      · obtain rfl : l = some m := Option.mem_toList.mp hm
        exact line_sound hl
      · exact ih hls m hm

theorem read_sound {text : String} {t : Table} (h : read text = some t) : t.Sound := by
  obtain ⟨ls, hls, h⟩ := Option.bind_eq_some_iff.mp h
  exact assemble_sound (lines_sound hls) h

end HeapPressure.Toml
