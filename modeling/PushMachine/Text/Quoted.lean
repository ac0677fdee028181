import PushMachine.Text.Combining
import PushMachine.Text.Hidden

/-! # Quoted text

The quoted form of strings and characters inside displayed code. The quote that surrounds the text,
the backslash and four controls have short escapes; a character that would not show by itself is
written as its code point in braces. -/

namespace PushMachine.Text

/-- The escape that gives a code point in hexadecimal. -/
def pointEscape (c : Char) : List Char :=
  '\\' :: 'u' :: '\x7b' :: Nat.toDigits 16 c.toNat ++ ['\x7d']

/-- One character as it stands between two `quote` marks. -/
def escape (quote c : Char) : List Char :=
  if c = '\x00' then ['\\', '0']
  else if c = '\t' then ['\\', 't']
  else if c = '\n' then ['\\', 'n']
  else if c = '\r' then ['\\', 'r']
  else if c = '\\' then ['\\', '\\']
  else if c = quote then ['\\', quote]
  else if isCombining c || isHidden c then pointEscape c
  else [c]

/-- A string in double quotes, with every character as by `escape`. -/
def quoteString (s : String) : String :=
  String.ofList ('"' :: s.toList.flatMap (escape '"') ++ ['"'])

/-- A character in single quotes, as by `escape`. -/
def quoteChar (c : Char) : String := String.ofList ('\'' :: escape '\'' c ++ ['\''])

end PushMachine.Text
