import ByteMachine.Text.Numeral
import ByteMachine.Yaml.Cursor

/-!
# Block scalars

A block scalar stands below its header, on lines that are indented alike. Literal lines are kept as they
are; folded lines are joined by spaces, unless one of them starts with a blank. What becomes of the line
breaks at its end is said in the header, which may also say how far the lines are indented.
-/

namespace ByteMachine.Yaml.Scalar

/-- What becomes of the line breaks at the end of a block scalar. -/
inductive Chomping where
  /-- They are dropped. -/
  | strip
  /-- The first one is kept. -/
  | clip
  /-- They are kept. -/
  | keep
  deriving DecidableEq, Repr

/-- The indicator of what becomes of the line breaks at the end. -/
def chomping? (c : Char) : Option Chomping := [('-', .strip), ('+', .keep)].lookup c

/-- The indicator of how far the lines are indented. -/
def depth? (c : Char) : Option Nat := (Text.digit? 10 c).filter (0 < ·)

/-- The indicators of a header, of each kind one at most. -/
def indicators? : List Char → Option (Chomping × Option Nat)
  | [] => some (.clip, none)
  | [c] =>
    match chomping? c with
    | some chomping => some (chomping, none)
    | none => (depth? c).map fun n => (.clip, some n)
  | [c, d] =>
    match chomping? c with
    | some chomping => (depth? d).map fun n => (chomping, some n)
    | none => do return (← chomping? d, some (← depth? c))
  | _ => none

/-- The line breaks up to the first line that is not empty, the largest column that was reached, and
the number of characters before that line, its indentation with them. The indentation is unknown at
first; no tab may be part of it. -/
def emptyLines (indent : Option Nat) (column widest : Nat) :
    List Char → Option (List Char × Nat × Nat)
  | [] => some ([], max widest column, 0)
  | c :: rest =>
    if indent.all (column < ·) && c == ' ' then
      (emptyLines indent (column + 1) widest rest).map fun (breaks, widest, n) =>
        (breaks, widest, n + 1)
    else if indent.all (column < ·) && c == '\t' then none
    else if isBreak c then
      (emptyLines indent 0 (max widest column) rest).map fun (breaks, widest, n) =>
        (c :: breaks, widest, n + 1)
    else some ([], max widest column, 0)

/-- A line of a block scalar that is not empty: its text, the line break after it unless the text ends,
and the line breaks of the empty lines that follow. -/
structure BlockLine where
  text : List Char
  ending : List Char
  more : List Char

/-- The lines from here on that are indented far enough, and the place after them. -/
def blockLines (indent : Nat) (cur : Cursor) : Option (List BlockLine × Cursor) :=
  if _h : cur.column ≠ indent ∨ cur.rest = [] then some ([], cur)
  else
    let text := cur.rest.takeWhile fun c => !isBreak c
    let after := cur.skip text.length
    match emptyLines (some indent) after.next.column 0 after.next.rest with
    | none => none
    | some (more, _, n) =>
      (blockLines indent (after.skip (n + 1))).map fun (lines, cur) =>
        (⟨text, after.rest.take 1, more⟩ :: lines, cur)
termination_by cur.rest.length
decreasing_by
  have hc := List.length_pos_iff.mpr fun hr => _h (.inr hr)
  simp only [Cursor.rest_skip, List.length_drop]
  omega

/-- The text of lines, after a line break and the line breaks of empty lines. Folded, a single line
break between two lines counts as a space, and the first of several is dropped, unless one of the two
lines starts with a blank. -/
def blockText (literal : Bool) (chomping : Chomping) (ending more : List Char) (afterBlank : Bool) :
    List BlockLine → List Char
  | [] =>
    match chomping with
    | .strip => []
    | .clip => ending
    | .keep => ending ++ more
  | l :: lines =>
    let startsBlank := l.text.head?.any isBlank
    (if !literal && ending == ['\n'] && !afterBlank && !startsBlank then
        if more.isEmpty then [' '] else more
      else ending ++ more) ++
      l.text ++ blockText literal chomping l.ending l.more startsBlank lines

/-- The text of a block scalar, from the place after the character that announces it, and the place
after it; `columns` are the columns of the blocks that it stands in, the innermost first. If the header
does not say how far the lines are indented, then the first line that is not empty does, which is
indented more than the block around it. -/
def block? (literal : Bool) (columns : List Nat) (cur : Cursor) : Option (String × Cursor) := do
  let header := cur.rest.takeWhile fun c => c == '+' || c == '-' || c.isDigit
  let (chomping, depth) ← indicators? header
  let cur ← (cur.skip header.length).finishLine?
  let indent := depth.map (columns.head?.getD 0 + ·)
  let (more, widest, n) ← emptyLines indent cur.column 0 cur.rest
  let least := max 1 ((columns.head?.map (· + 1)).getD 0)
  let (lines, cur) ← blockLines (indent.getD (max widest least)) (cur.skip n)
  return (String.ofList (blockText literal chomping [] more false lines), cur)

end ByteMachine.Yaml.Scalar
