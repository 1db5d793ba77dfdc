import HeapPressure.Proofs.Memory.Budget

/-!
Budgets one inside the other, in front of any allocator. Each of them is charged for what comes
out at the end, so they stand alike at all times, and the one with the least cap decides for all.
-/
namespace HeapPressure.Memory

/-- The states of an allocator behind `n` budgets, the outermost in front. -/
def Behind (σ : Type) : Nat → Type
  | 0 => σ
  | n + 1 => Budget × Behind σ n

namespace Behind

variable {σ τ : Type}

/-- Budgets with these caps that have all been charged `spent` bytes. -/
def charged (spent : Nat) (s : σ) : (caps : List Nat) → Behind σ caps.length
  | [] => s
  | cap :: caps => (⟨cap, spent⟩, charged spent s caps)

def budgets : (n : Nat) → Behind σ n → List Budget
  | 0, _ => []
  | n + 1, t => t.1 :: budgets n t.2

/-- The state of the allocator itself. -/
def innermost : (n : Nat) → Behind σ n → σ
  | 0, t => t
  | n + 1, t => innermost n t.2

def mapInnermost (f : σ → τ) : (n : Nat) → Behind σ n → Behind τ n
  | 0 => f
  | n + 1 => Prod.map id (mapInnermost f n)

theorem budgets_charged (spent : Nat) (s : σ) (caps : List Nat) :
    budgets caps.length (charged spent s caps) = caps.map fun cap => ⟨cap, spent⟩ := by
  induction caps with
  | nil => rfl
  | cons cap caps ih => exact congrArg (List.cons _) ih

theorem innermost_charged (spent : Nat) (s : σ) (caps : List Nat) :
    innermost caps.length (charged spent s caps) = s := by
  induction caps with
  | nil => rfl
  | cons cap caps ih => exact ih

theorem mapInnermost_charged (f : σ → τ) (spent : Nat) (s : σ) (caps : List Nat) :
    mapInnermost f caps.length (charged spent s caps) = charged spent (f s) caps := by
  induction caps with
  | nil => rfl
  | cons cap caps ih => exact congrArg (Prod.mk _) ih

end Behind

namespace Allocator

open Behind (charged budgets innermost mapInnermost)

variable {σ τ : Type} {a : Allocator σ} {b : Allocator τ} {f : σ → τ} {l : Layout} {spent : Nat}
  {s : σ} {caps : List Nat}

/-- The allocator behind `n` budgets. -/
def behind (a : Allocator σ) : (n : Nat) → Allocator (Behind σ n)
  | 0 => a
  | n + 1 => (a.behind n).capped

theorem Projects.behind (h : Projects f a b) (n : Nat) :
    Projects (mapInnermost f n) (a.behind n) (b.behind n) := by
  induction n with
  | zero => exact h
  | succ n ih => exact ih.capped

theorem Projects.requestAll (h : Projects f a b) (ls : List Layout) (s : σ) :
    b.requestAll ls (f s) = ((a.requestAll ls s).1, f (a.requestAll ls s).2) := by
  induction ls generalizing s with
  | nil => rfl
  | cons l ls ih => simp only [Allocator.requestAll, h l s, ih]

/-- What fits into every budget reaches the allocator, and its answer is charged to all. -/
theorem request_charged_of_fits (hl : ∀ cap ∈ caps, l.size ≤ cap - spent) :
    (a.behind caps.length).request l (charged spent s caps) =
      ((a.request l s).1,
        charged (spent + bytesIn [(a.request l s).1]) (a.request l s).2 caps) := by
  induction caps with
  | nil => rfl
  | cons cap caps ih =>
    obtain ⟨hcap, hcaps⟩ := List.forall_mem_cons.mp hl
    have hd : (⟨cap, spent⟩ : Budget).admits l = true := Budget.admits_iff.mpr hcap
    have hs : (⟨cap, spent⟩ : Budget).settle (a.request l s).1 =
        ⟨cap, spent + bytesIn [(a.request l s).1]⟩ := by
      cases (a.request l s).1 <;> rfl
    exact (capped_request_of_admits hd).trans (by rw [ih hcaps, hs]; rfl)

/-- What does not fit into one of them is refused, and changes nothing in front of it or behind. -/
theorem request_charged_of_not_fits (hl : ∃ cap ∈ caps, ¬l.size ≤ cap - spent) :
    (a.behind caps.length).request l (charged spent s caps) = (none, charged spent s caps) := by
  induction caps with
  | nil => simp at hl
  | cons cap caps ih =>
    by_cases hcap : l.size ≤ cap - spent
    · have hcaps : ∃ cap ∈ caps, ¬l.size ≤ cap - spent := by
        obtain ⟨least, hmem, hleast⟩ := hl
        have hne : least ≠ cap := fun h => hleast (h ▸ hcap)
        exact ⟨least, List.mem_of_ne_of_mem hne hmem, hleast⟩
      have hd : (⟨cap, spent⟩ : Budget).admits l = true := Budget.admits_iff.mpr hcap
      exact (capped_request_of_admits hd).trans (by rw [ih hcaps]; rfl)
    · exact capped_request_of_not_admits (mt Budget.admits_iff.mp hcap)

theorem fits_all_iff {least n : Nat} (hm : caps.min? = some least) :
    (∀ cap ∈ caps, n ≤ cap - spent) ↔ n ≤ least - spent := by
  obtain ⟨hmem, hmin⟩ := List.min?_eq_some_iff.mp hm
  constructor
  · intro h
    exact h least hmem
  · intro h cap hcap
    have hle := hmin cap hcap
    omega

/-- The states of nested budgets that a single one with the least cap stands for. -/
inductive Alike (caps : List Nat) (least : Nat) : Behind σ caps.length → Budget × σ → Prop where
  | charged {spent : Nat} {s : σ} (within : spent ≤ least) :
      Alike caps least (charged spent s caps) (⟨least, spent⟩, s)

/-- The same answer from both, and both are charged for it or neither. -/
theorem Alike.request {least : Nat} {t : Behind σ caps.length} {q : Budget × σ}
    (h : Alike caps least t q) (hm : caps.min? = some least) (ha : a.Bounded) (l : Layout) :
    ((a.behind caps.length).request l t).1 = (a.capped.request l q).1 ∧
      Alike caps least ((a.behind caps.length).request l t).2 (a.capped.request l q).2 := by
  cases h with
  | @charged spent s within =>
    have hcharges := capped_request_charges ha l ⟨least, spent⟩ s within
    -- a single budget is the case of one cap
    by_cases hl : l.size ≤ least - spent
    · have hone : a.capped.request l (⟨least, spent⟩, s) = _ :=
        @request_charged_of_fits _ a l spent s [least] (by simpa using hl)
      rw [request_charged_of_fits ((fits_all_iff hm).mpr hl), hone]
      rw [hone] at hcharges
      exact ⟨rfl, .charged hcharges.2.2⟩
    · have hone : a.capped.request l (⟨least, spent⟩, s) = _ :=
        @request_charged_of_not_fits _ a l spent s [least] (by simpa using hl)
      have hall : ∃ cap ∈ caps, ¬l.size ≤ cap - spent := by
        simpa using mt (fits_all_iff hm).mp hl
      rw [request_charged_of_not_fits hall, hone]
      exact ⟨rfl, .charged within⟩

theorem Alike.requestAll {least : Nat} {t : Behind σ caps.length} {q : Budget × σ}
    (h : Alike caps least t q) (hm : caps.min? = some least) (ha : a.Bounded)
    (ls : List Layout) :
    ((a.behind caps.length).requestAll ls t).1 = (a.capped.requestAll ls q).1 ∧
      Alike caps least ((a.behind caps.length).requestAll ls t).2
        (a.capped.requestAll ls q).2 := by
  induction ls generalizing t q with
  | nil => exact ⟨rfl, h⟩
  | cons l ls ih =>
    obtain ⟨hc, ht⟩ := h.request hm ha l
    obtain ⟨hcs, hts⟩ := ih ht
    refine ⟨?_, hts⟩
    simp only [Allocator.requestAll, hc, hcs]

theorem Alike.innermost_eq {least : Nat} {t : Behind σ caps.length} {q : Budget × σ}
    (h : Alike caps least t q) : innermost caps.length t = q.2 := by
  cases h with
  | charged _ => exact Behind.innermost_charged ..

theorem Alike.within {least : Nat} {t : Behind σ caps.length} {q : Budget × σ}
    (h : Alike caps least t q) : q.1.allocated ≤ least := by
  cases h with
  | charged within => exact within

theorem Alike.budgets_eq {least : Nat} {t : Behind σ caps.length} {q : Budget × σ}
    (h : Alike caps least t q) :
    budgets caps.length t = (caps.map fun cap => ⟨cap, q.1.allocated⟩) := by
  cases h with
  | charged _ => exact Behind.budgets_charged ..

/-- Fresh budgets, one inside the other, and a single one with the least of their caps: after any
requests they gave the same answers, they passed on the same requests in the same order, and each
of the nested ones has handed out as much as the single one, none of them more than its cap. The
record of the requests that were passed on changes nothing. -/
theorem requestAll_nested (a : Allocator σ) (ha : a.Bounded) (caps : List Nat) (least : Nat)
    (hm : caps.min? = some least) (s : σ) (ls : List Layout) :
    let r := (a.recorded.behind caps.length).requestAll ls (charged 0 (s, []) caps)
    let q := a.recorded.capped.requestAll ls (⟨least, 0⟩, s, [])
    (r.1 = q.1 ∧ innermost caps.length r.2 = q.2.2 ∧
      budgets caps.length r.2 = (caps.map fun cap => ⟨cap, q.2.1.allocated⟩) ∧
      ∀ b ∈ budgets caps.length r.2, b.allocated ≤ b.cap) ∧
    (a.behind caps.length).requestAll ls (charged 0 s caps) =
      (r.1, mapInnermost Prod.fst caps.length r.2) ∧
    a.capped.requestAll ls (⟨least, 0⟩, s) = (q.1, Prod.map id Prod.fst q.2) := by
  intro r q
  have hfresh : Alike (σ := σ × List Exchange) caps least (charged 0 (s, []) caps)
      (⟨least, 0⟩, s, []) := .charged (Nat.zero_le least)
  obtain ⟨hanswers, hr⟩ := hfresh.requestAll hm ha.recorded ls
  have hbudgets := hr.budgets_eq
  refine ⟨⟨hanswers, hr.innermost_eq, hbudgets, ?_⟩, ?_, ?_⟩
  · intro b hb
    rw [hbudgets] at hb
    obtain ⟨cap, hcap, rfl⟩ := List.mem_map.mp hb
    exact Nat.le_trans hr.within ((List.min?_eq_some_iff.mp hm).2 cap hcap)
  · have hp := (a.projects_recorded.behind caps.length).requestAll ls (charged 0 (s, []) caps)
    rwa [Behind.mapInnermost_charged] at hp
  · exact a.projects_recorded.capped.requestAll ls (⟨least, 0⟩, s, [])

/-- Of 100, 40 and 70 bytes the second budget decides, over an allocator that halves what it is
asked for: it refuses 28 bytes when 24 are left, and 13 when 12 are. The request for no bytes is
passed on, and refused at the heap. -/
theorem requestAll_nested_halved :
    let a := (Allocator.ofHeap .roomy).scaled 1 2
    let ls : List Layout := [⟨32, 8, by decide, by decide⟩, ⟨28, 16, by decide, by decide⟩,
      ⟨24, 4, by decide, by decide⟩, ⟨13, 1, by decide, by decide⟩, ⟨0, 8, by decide, by decide⟩]
    a.Bounded ∧ [100, 40, 70].min? = some 40 ∧
    ∃ r q, r = (a.recorded.behind 3).requestAll ls (charged 0 ((), []) [100, 40, 70]) ∧
      q = a.recorded.capped.requestAll ls (⟨40, 0⟩, (), []) ∧ r.1 = q.1 ∧
      r.1.map (Option.map Chunk.len) = [some 16, none, some 12, none, none] ∧
      innermost 3 r.2 = q.2.2 ∧ q.2.2.2.length = 3 ∧
      budgets 3 r.2 = [⟨100, 28⟩, ⟨40, 28⟩, ⟨70, 28⟩] := by
  intro a ls
  have ha : a.Bounded := (bounded_ofHeap .roomy).scaled (by decide)
  have hm : [100, 40, 70].min? = some 40 := by decide
  obtain ⟨⟨hanswers, hinner, hbudgets, -⟩, -⟩ := requestAll_nested a ha [100, 40, 70] 40 hm () ls
  exact ⟨ha, hm, _, _, rfl, rfl, hanswers, by decide, hinner, by decide, hbudgets⟩

end Allocator
end HeapPressure.Memory
