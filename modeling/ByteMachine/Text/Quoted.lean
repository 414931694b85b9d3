import ByteMachine.Text.Blank
import ByteMachine.Text.Mark
import ByteMachine.Text.Numeral
import ByteMachine.Text.Unassigned

/-!
# Quoted text

A character or a text between quotes, with escapes for what would not show: `\0`, `\t`, `\n`, `\r`, the
backslash, the enclosing quote, and `\u` with the code point in lower-case digits of base sixteen for
every other character without a shape of its own. Blanks but the space have none, nor have controls,
fillers, marks that extend the character before them, and code points without a character.

Main statement: `ordered_shapeless`.
-/

namespace ByteMachine.Text

/-- The controls, the characters for formatting and for private use, and the fillers: characters that
are assigned and no blanks, but have no shape. -/
def shapeless : List CodeRange :=
  [(0x0000, 0x001F), (0x007F, 0x009F), (0x00AD, 0x00AD), (0x0600, 0x0605), (0x061C, 0x061C),
   (0x06DD, 0x06DD), (0x070F, 0x070F), (0x0890, 0x0891), (0x08E2, 0x08E2), (0x115F, 0x1160),
   (0x180E, 0x180E), (0x200B, 0x200F), (0x202A, 0x202E), (0x2060, 0x2064), (0x2066, 0x206F),
   (0x3164, 0x3164), (0xE000, 0xF8FF), (0xFEFF, 0xFEFF), (0xFFA0, 0xFFA0), (0xFFF9, 0xFFFB),
   (0x110BD, 0x110BD), (0x110CD, 0x110CD), (0x13430, 0x1343F), (0x1BCA0, 0x1BCA3),
   (0x1D173, 0x1D17A), (0xE0001, 0xE0001), (0xE0020, 0xE007F), (0xF0000, 0xFFFFD),
   (0x100000, 0x10FFFD)]

theorem ordered_shapeless : CodeRange.ordered shapeless := by decide

/-- The character has a shape of its own, or is the space. -/
def isShown (c : Char) : Bool :=
  c == ' ' ||
    !(isBlank c || CodeRange.contains c.toNat shapeless || isMark c || isUnassigned c)

/-- A character as it stands between the quotes. -/
def escapeChar (quote c : Char) : List Char :=
  if c == '\x00' then ['\\', '0']
  else if c == '\t' then ['\\', 't']
  else if c == '\n' then ['\\', 'n']
  else if c == '\r' then ['\\', 'r']
  else if c == '\\' || c == quote then ['\\', c]
  else if isShown c then [c]
  else "\\u\x7b".toList ++ (numeral 16 c.toNat).map Char.toLower ++ ['\x7d']

/-- A character between single quotes. -/
def quoteChar (c : Char) : String :=
  String.ofList (['\''] ++ escapeChar '\'' c ++ ['\''])

/-- A text between double quotes. -/
def quote (s : String) : String :=
  String.ofList (['"'] ++ s.toList.flatMap (escapeChar '"') ++ ['"'])

/-- Letters and digits of ASCII have a shape. -/
example : ∀ n : Fin 128, (Char.ofNat n).isAlphanum → isShown (Char.ofNat n) := by decide +kernel

example : quoteChar '\'' = "'\\''" ∧ quoteChar '"' = "'\"'" := by decide

example : quote "a'\"\t" = "\"a'\\\"\\t\"" := by decide

example : quote "e\u0591\u115f" = "\"e\\u\x7b591\x7d\\u\x7b115f\x7d\"" := by decide +kernel

/-- A vowel sign may take room of its own, or extend the consonant before it. -/
example : isShown '\u093f' ∧ isShown '\uff9e' ∧ ¬ isShown '\u09be' ∧ ¬ isShown '\u094d' := by
  decide +kernel

end ByteMachine.Text
