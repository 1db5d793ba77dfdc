/-!
Hexadecimal digits in either case, and the characters whose codes they write.
-/
namespace HeapPressure.Text

def hexValue? (c : Char) : Option Nat :=
  if '0' ≤ c ∧ c ≤ '9' then some (c.toNat - 48)
  else if 'a' ≤ c ∧ c ≤ 'f' then some (c.toNat - 87)
  else if 'A' ≤ c ∧ c ≤ 'F' then some (c.toNat - 55)
  else none

/-- The character with the given hexadecimal code. -/
def charOfHex? (digits : List Char) : Option Char := do
  let code ← digits.foldlM (fun n d => do pure (n * 16 + (← hexValue? d))) 0
  if code < 0xD800 || (0xDFFF < code && code < 0x110000) then some (Char.ofNat code) else none

end HeapPressure.Text
