import Rollup.Text.Digits

/-
Characters that a terminal may take as commands, and texts that spell them out.

The commands are the bell, the backspace, the form feed, the escape and the delete
character, and the 32 control characters above the ASCII range.  Other control characters
only move the cursor or do nothing and stay as they are.
-/

namespace Rollup
namespace Text

def isShortCommand (c : Char) : Bool :=
  c == '\x07' || c == '\x08' || c == '\x0c' || c == '\x1b' || c == '\x7f'

def isHighControl (c : Char) : Bool := 0x80 ≤ c.toNat && c.toNat ≤ 0x9F

/-- A command by its code point in hexadecimal, two digits long in the ASCII range and
between braces above it; any other character as it is. -/
def spell (c : Char) : List Char :=
  if isShortCommand c then ['\\', 'x'] ++ hexPadded 2 c.toNat
  else if isHighControl c then ['\\', 'u', '\x7b'] ++ hexDigits c.toNat ++ ['\x7d']
  else [c]

def withoutCommands (s : String) : String := String.ofList (s.toList.flatMap spell)

end Text
end Rollup
