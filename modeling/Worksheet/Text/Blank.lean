/-!
# Blank characters

The white space that may stand between the symbols of an expression: the characters of Unicode's
separator classes, the control characters that break lines or move the carriage, and the four
information separators.
-/

namespace Worksheet.Text

/-- White space: the space separators, the line and paragraph separators, tab to carriage return,
the information separators U+001C to U+001F, and U+0085. -/
def isBlank (c : Char) : Bool :=
  let n := c.toNat
  (0x09 ≤ n && n ≤ 0x0d) || (0x1c ≤ n && n ≤ 0x20) || n == 0x85 || n == 0xa0 || n == 0x1680
    || (0x2000 ≤ n && n ≤ 0x200a) || n == 0x2028 || n == 0x2029 || n == 0x202f || n == 0x205f
    || n == 0x3000

/-- The white space that may surround a numeral typed into a cell: the blank characters, except for
the information separators. -/
def isMargin (c : Char) : Bool :=
  isBlank c && !(0x1c ≤ c.toNat && c.toNat ≤ 0x1f)

end Worksheet.Text
