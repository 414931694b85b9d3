/-!
# Characters of YAML texts

The classes of characters that the format tells apart: line breaks, blanks, the characters that a text
may hold, and those that stand for something else than themselves.

Main statement: `isReadable_of_isPrintable`.
-/

namespace ByteMachine.Yaml

/-- A line break. -/
def isBreak (c : Char) : Bool :=
  c == '\n' || c == '\r' || c.toNat == 0x85 || c.toNat == 0x2028 || c.toNat == 0x2029

/-- A space or a tab. -/
def isBlank (c : Char) : Bool := c == ' ' || c == '\t'

/-- The text ends here, or a blank or a line break stands here. -/
def atBlank : List Char → Bool
  | [] => true
  | c :: _ => isBlank c || isBreak c

/-- The mark of the byte order. -/
def isOrderMark (c : Char) : Bool := c.toNat == 0xFEFF

/-- A character that can be written outside double quotes. -/
def isPrintable (c : Char) : Bool :=
  c == '\n' || (0x20 ≤ c.toNat && c.toNat ≤ 0x7E) || (0xA0 ≤ c.toNat && c.toNat ≤ 0xD7FF) ||
    (0xE000 ≤ c.toNat && c.toNat ≤ 0xFFFD && !isOrderMark c) || 0x10000 ≤ c.toNat

/-- A character that can be read. -/
def isReadable (c : Char) : Bool :=
  c == '\t' || c == '\r' || c.toNat == 0x85 || isOrderMark c || isPrintable c

theorem isReadable_of_isPrintable {c : Char} (h : isPrintable c) : isReadable c := by
  simp [isReadable, h]

/-- A character that means something else at the start of a plain scalar. -/
def isIndicator (c : Char) : Bool := "#,[]\x7b\x7d&*!|>'\"%@`".toList.contains c

/-- A character that ends a plain scalar in a flow. -/
def endsFlowScalar (c : Char) : Bool := ",[]\x7b\x7d".toList.contains c

/-- A character of the name of an anchor. -/
def isNameChar (c : Char) : Bool := c.isAlphanum || c == '_' || c == '-'

/-- A character of a tag, the percent sign apart. In angle brackets a tag may hold commas and square
brackets, too. -/
def isTagChar (bracketed : Bool) (c : Char) : Bool :=
  isNameChar c || ";/?:@&=+$.!~*'()".toList.contains c || (bracketed && ",[]".toList.contains c)

/-- The text with a line feed for each line break of another kind, separators apart. -/
def unifyBreaks : List Char → List Char
  | [] => []
  | '\r' :: '\n' :: rest => '\n' :: unifyBreaks rest
  | c :: rest => (if c == '\r' || c.toNat == 0x85 then '\n' else c) :: unifyBreaks rest

end ByteMachine.Yaml
