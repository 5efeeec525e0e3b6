import Worksheet.Text.Printable

/-!
# Quoted text

A text is shown in messages between quotes, in a form that fits on one line. `quoted` chooses the
enclosing mark and escapes the mark, the backslash and every character that cannot be printed.
-/

namespace Worksheet.Text

/-- The last `width` hexadecimal digits of a number, in lower case. -/
def hex : Nat → Nat → List Char
  | 0, _ => []
  | width + 1, n => hex width (n / 16) ++ [Nat.digitChar (n % 16)]

/-- The mark that encloses a text: the single quote, unless the text holds single quotes and no
double one. -/
def mark (s : List Char) : Char :=
  if s.contains '\x27' && !s.contains '"' then '"' else '\x27'

/-- How a character is shown between marks. -/
def escape (mark c : Char) : List Char :=
  if c = mark || c = '\\' then ['\\', c]
  else if c = '\n' then ['\\', 'n']
  else if c = '\r' then ['\\', 'r']
  else if c = '\t' then ['\\', 't']
  else if isPrintable c then [c]
  else if c.toNat < 0x100 then '\\' :: 'x' :: hex 2 c.toNat
  else if c.toNat < 0x10000 then '\\' :: 'u' :: hex 4 c.toNat
  else '\\' :: 'U' :: hex 8 c.toNat

/-- A text between marks. -/
def quote (s : List Char) : List Char :=
  mark s :: s.flatMap (escape (mark s)) ++ [mark s]

/-- A text as it is shown in messages. -/
def quoted (s : String) : String := String.ofList (quote s.toList)

end Worksheet.Text
