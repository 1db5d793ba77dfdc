import HeapPressure.Text.Printable

/-!
Quoted text for messages: quotes and backslashes are escaped, and so is every character that
would not show.
-/
namespace HeapPressure.Text

/-- One character inside quotes. -/
def quoteChar (c : Char) : List Char :=
  if c = '\"' then ['\\', '\"']
  else if c = '\\' then ['\\', '\\']
  else if c = '\n' then ['\\', 'n']
  else if c = '\r' then ['\\', 'r']
  else if c = '\t' then ['\\', 't']
  else if c = '\x00' then ['\\', '0']
  else if isPrintable c then [c]
  else ['\\', 'u', '\x7b'] ++ Nat.toDigits 16 c.toNat ++ ['\x7d']

def quoted (s : String) : String :=
  String.ofList (['\"'] ++ s.toList.flatMap quoteChar ++ ['\"'])

end HeapPressure.Text
