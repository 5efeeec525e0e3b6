/-!
# Characters of documents

Which characters a document may hold, which of them are white space, and how line ends are read:
a carriage return, with or without a line feed behind it, counts as one line feed.
-/

namespace Worksheet.Xml

/-- Whether a document may hold a character: no control characters but tab, line feed and carriage
return, and not the last two code points of the basic plane. -/
def isChar (c : Char) : Bool :=
  c == '\t' || c == '\n' || c == '\r'
    || (0x20 ≤ c.toNat && c.toNat != 0xfffe && c.toNat != 0xffff)

/-- White space between the parts of markup. -/
def isSpace (c : Char) : Bool := c == ' ' || c == '\t' || c == '\n' || c == '\r'

/-- Reads line ends. -/
def unifyLines : List Char → List Char
  | '\r' :: '\n' :: cs => '\n' :: unifyLines cs
  | '\r' :: cs => '\n' :: unifyLines cs
  | c :: cs => c :: unifyLines cs
  | [] => []

/-- A text without carriage returns keeps its line ends. -/
theorem unifyLines_eq {cs : List Char} (h : '\r' ∉ cs) : unifyLines cs = cs := by
  induction cs with
  | nil => rfl
  | cons c cs ih =>
    simp only [List.mem_cons, not_or] at h
    rw [unifyLines]
    · rw [ih h.2]
    · exact fun _ hc _ => h.1 hc.symm
    · exact fun hc => h.1 hc.symm

end Worksheet.Xml
