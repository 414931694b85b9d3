import ByteMachine.Yaml.Character

/-!
# Places in a YAML text

A cursor is a place in a text, with its line and its column, on which the indentation of blocks depends,
and the number of octets before it, on which the extent of keys depends. `next` and `skip` go on in the
text, `settle` goes to the next token.

Main statements: `rest_skip`, `length_rest_skip_lt` (what is left becomes shorter).
-/

namespace ByteMachine.Yaml

/-- A place in a text: the characters that follow, the line, the column, and the number of octets that
encode what stands before it. -/
structure Cursor where
  rest : List Char
  line : Nat
  column : Nat
  index : Nat
  deriving DecidableEq, Repr

namespace Cursor

/-- The place after a character. -/
def next (cur : Cursor) : Cursor :=
  match cur.rest with
  | [] => cur
  | c :: rest =>
    let index := cur.index + c.utf8Size
    if isBreak c then ⟨rest, cur.line + 1, 0, index⟩ else ⟨rest, cur.line, cur.column + 1, index⟩

/-- The place some characters later. -/
def skip (cur : Cursor) : Nat → Cursor
  | 0 => cur
  | n + 1 => cur.next.skip n

theorem rest_next (cur : Cursor) : cur.next.rest = cur.rest.drop 1 := by
  unfold next
  split
  · simp_all
  · split <;> simp_all

theorem rest_skip (cur : Cursor) (n : Nat) : (cur.skip n).rest = cur.rest.drop n := by
  induction n generalizing cur with
  | zero => rfl
  | succ n ih => rw [skip, ih, rest_next, List.drop_drop, Nat.add_comm]

theorem length_rest_skip_lt {cur : Cursor} (h : cur.rest ≠ []) (n : Nat) :
    (cur.skip (n + 1)).rest.length < cur.rest.length := by
  have := List.length_pos_iff.mpr h
  rw [rest_skip, List.length_drop]
  omega

/-- The mark of three equal characters that starts or ends a document. -/
def atMarker (mark : Char) (cur : Cursor) : Bool :=
  cur.column == 0 && cur.rest.take 3 == [mark, mark, mark] && atBlank (cur.rest.drop 3)

/-- The document ends here. -/
def atEnd (cur : Cursor) : Bool :=
  cur.rest.isEmpty || cur.atMarker '-' || cur.atMarker '.'

theorem rest_ne_nil_of_atEnd {cur : Cursor} (h : cur.atEnd = false) : cur.rest ≠ [] := by
  intro hr
  simp [atEnd, hr] at h

/-! ### The next token -/

/-- The number of characters up to the next token, from a column on, and whether a key can start there:
blanks, line breaks, comments, and the mark of the byte order at the start of a line. A tab may not stand
where a key can start, and outside a flow a key can start after each line break. -/
def gapBefore (flow keyAllowed comment : Bool) (column : Nat) : List Char → Nat × Bool
  | [] => (0, keyAllowed)
  | c :: rest =>
    let after (gap : Nat × Bool) : Nat × Bool := (gap.1 + 1, gap.2)
    if isBreak c then after (gapBefore flow (keyAllowed || !flow) false 0 rest)
    else if comment || c == ' ' || (c == '\t' && (flow || !keyAllowed)) ||
        (isOrderMark c && column == 0) then
      after (gapBefore flow keyAllowed comment (column + 1) rest)
    else if c == '#' then after (gapBefore flow keyAllowed true (column + 1) rest)
    else (0, keyAllowed)

/-- The place of the next token, and whether a key can start there. -/
def settle (flow keyAllowed : Bool) (cur : Cursor) : Cursor × Bool :=
  let (n, keyAllowed) := gapBefore flow keyAllowed false cur.column cur.rest
  (cur.skip n, keyAllowed)

/-- The place after the blanks of a line. -/
def skipBlanks (cur : Cursor) : Cursor := cur.skip (cur.rest.takeWhile isBlank).length

/-- The place after the rest of a line that holds blanks and a comment at most. -/
def finishLine? (cur : Cursor) : Option Cursor :=
  let cur := cur.skipBlanks
  let cur := match cur.rest with
    | '#' :: _ => cur.skip (cur.rest.takeWhile fun c => !isBreak c).length
    | _ => cur
  match cur.rest with
  | [] => some cur
  | c :: _ => if isBreak c then some cur.next else none

end Cursor

end ByteMachine.Yaml
