/-!
Character classes given by tables: ranges of codes in ascending order.
-/
namespace HeapPressure.Text

/-- Ranges of codes, each by its first and its last. -/
abbrev CodeRanges := List (Nat × Nat)

def CodeRanges.has (ranges : CodeRanges) (n : Nat) : Bool :=
  ranges.any fun r => r.1 ≤ n && n ≤ r.2

end HeapPressure.Text
