import Rollup.Text.Digits
import Rollup.Text.Printable

/-
Texts between quotation marks, for messages that must show where a text begins and ends.
-/

namespace Rollup
namespace Text

/-- One character of a quoted text: the usual short escapes, then the code point in
hexadecimal between braces for what would not be seen, then the character itself. -/
def escape (c : Char) : List Char :=
  if c == '\x00' then ['\\', '0']
  else if c == '\t' then ['\\', 't']
  else if c == '\r' then ['\\', 'r']
  else if c == '\n' then ['\\', 'n']
  else if c == '\\' || c == '"' then ['\\', c]
  else if isHidden c then ['\\', 'u', '\x7b'] ++ hexDigits c.toNat ++ ['\x7d']
  else [c]

def quoted (s : String) : String :=
  String.ofList ('"' :: s.toList.flatMap escape ++ ['"'])

end Text
end Rollup
