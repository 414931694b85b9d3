import ByteMachine.Yaml.Character

/-!
# Folding of lines

A scalar that is plain or quoted may run over several lines. Its text comes from its parts by joining
the lines: one line break counts as a space, of several the first is dropped, and blanks beside a line
break count for nothing.

Main statements: `join_solid`, `join_append_continuation` (an escaped line break separates what is
joined before it from what is joined after it).
-/

namespace ByteMachine.Yaml

/-- A part of a scalar before its lines are joined. -/
inductive Piece where
  /-- A character that stands for itself. -/
  | solid (c : Char)
  | blank (c : Char)
  | lineBreak (c : Char)
  /-- A line break that is escaped, and so stands for nothing. -/
  | continuation
  deriving DecidableEq, Repr

/-- The part that an unescaped character is. -/
def Piece.ofChar (c : Char) : Piece :=
  if isBreak c then .lineBreak c else if isBlank c then .blank c else .solid c

/-- What separates two solid characters. -/
inductive Gap where
  | blanks (cs : List Char)
  /-- Line breaks, the first of which may be escaped. -/
  | breaks (first : Option Char) (more : List Char)

namespace Gap

/-- The characters that a gap stands for. A separator of lines or paragraphs is kept. -/
def text : Gap → List Char
  | .blanks cs => cs
  | .breaks (some '\n') [] => [' ']
  | .breaks (some '\n') more => more
  | .breaks first more => first.toList ++ more

/-- The gap with a blank after it. -/
def addBlank (c : Char) : Gap → Gap
  | .blanks cs => .blanks (cs ++ [c])
  | .breaks first more => .breaks first more

/-- The gap with a line break after it. -/
def addBreak (c : Char) : Gap → Gap
  | .blanks _ => .breaks (some c) []
  | .breaks first more => .breaks first (more ++ [c])

end Gap

/-- The text of a gap and the parts after it, with their lines joined. -/
def join (gap : Gap) : List Piece → List Char
  | [] => gap.text
  | .solid c :: rest => gap.text ++ c :: join (.blanks []) rest
  | .blank c :: rest => join (gap.addBlank c) rest
  | .lineBreak c :: rest => join (gap.addBreak c) rest
  | .continuation :: rest => gap.text ++ join (.breaks none []) rest

/-- The text of parts. -/
def fold (pieces : List Piece) : String := String.ofList (join (.blanks []) pieces)

/-- Solid characters stand for themselves. -/
theorem join_solid (cs : List Char) : join (.blanks []) (cs.map .solid) = cs := by
  induction cs with
  | nil => rfl
  | cons c cs ih => simp [join, Gap.text, ih]

theorem join_append_continuation (gap : Gap) (before after : List Piece) :
    join gap (before ++ .continuation :: after) =
      join gap before ++ join (.breaks none []) after := by
  induction before generalizing gap with
  | nil => rfl
  | cons piece before ih => cases piece <;> simp [join, ih]

end ByteMachine.Yaml
