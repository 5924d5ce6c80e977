import Coverage.Text.Digit
import Coverage.Text.Printable
/-!
Quoted texts for log entries and diagnostics. Quotation marks and backslashes are escaped, some
controls have names of their own, and other characters that cannot be shown are written by their code
point.
-/

namespace Coverage.Text

def escapeForQuote (c : Char) : List Char :=
  if c = '\x00' then ['\\', '0']
  else if c = '\t' then ['\\', 't']
  else if c = '\r' then ['\\', 'r']
  else if c = '\n' then ['\\', 'n']
  else if c = '\\' ∨ c = '"' then ['\\', c]
  else if isPrintable c then [c]
  else ['\\', 'u', '\x7b'] ++ Nat.toDigits 16 c.toNat ++ ['\x7d']

def quoted (s : String) : String :=
  String.ofList ('"' :: s.toList.flatMap escapeForQuote ++ ['"'])

def bracketed (items : List String) : String := "[" ++ ", ".intercalate items ++ "]"

end Coverage.Text
