import ByteMachine.Yaml.Cursor
import ByteMachine.Yaml.Folding

/-!
# Plain scalars

A plain scalar stands without quotes. It goes on over blanks and line breaks as long as a run of other
characters follows that is indented far enough and starts no comment and no mark of a document.

Main statement: `run_append_drop` (a run is what a text starts with).
-/

namespace ByteMachine.Yaml.Scalar

/-- A plain scalar can start here. -/
def plainStartsAt (flow : Bool) : List Char → Bool
  | [] => false
  | c :: rest =>
    if c == '-' then !atBlank rest
    else if c == '?' || c == ':' then !flow && !atBlank rest
    else !isIndicator c && !isBlank c && !isBreak c

/-- A colon that may not stand in a plain scalar of a flow: a character that ends the scalar there or a
question mark follows it. -/
def isStrayColon (flow : Bool) : List Char → Bool
  | ':' :: c :: _ => flow && (endsFlowScalar c || c == '?')
  | _ => false

/-- A run of a plain scalar ends here. -/
def endsRun (flow : Bool) : List Char → Bool
  | [] => true
  | c :: rest =>
    isBlank c || isBreak c || (c == ':' && atBlank rest) || (flow && endsFlowScalar c) ||
      isStrayColon flow (c :: rest)

/-- The characters up to the end of the run. -/
def run (flow : Bool) : List Char → List Char
  | [] => []
  | c :: rest => if endsRun flow (c :: rest) then [] else c :: run flow rest

theorem run_append_drop (flow : Bool) (cs : List Char) :
    run flow cs ++ cs.drop (run flow cs).length = cs := by
  induction cs with
  | nil => rfl
  | cons c rest ih =>
    unfold run
    split
    · rfl
    · simp [ih]

/-- After a line break no tab stands left of column `least`. -/
def tabsFit (least : Nat) (broken : Bool) (column : Nat) : List Char → Bool
  | [] => true
  | c :: rest =>
    if isBreak c then tabsFit least true 0 rest
    else !(broken && c == '\t' && column < least) && tabsFit least broken (column + 1) rest

/-- A plain scalar, or its parts from here on: the parts, the place of what follows, and whether
a line break stands between the last part and that place. -/
structure PlainParts where
  pieces : List Piece
  stop : Cursor
  broken : Bool

/-- The parts of a plain scalar from here on. A line of the scalar starts at column `least` or after
it. -/
def plainParts (flow : Bool) (least : Nat) (cur : Cursor) : Option PlainParts :=
  if cur.atEnd || cur.rest.head? == some '#' then some ⟨[], cur, false⟩
  else
    let first := run flow cur.rest
    let last := cur.skip first.length
    let gap := last.rest.takeWhile fun c => isBlank c || isBreak c
    let next := last.skip gap.length
    let broken := gap.any isBreak
    if isStrayColon flow last.rest || !tabsFit least false last.column gap then none
    else if _h : gap = [] || (!flow && next.column < least) then
      some ⟨first.map .solid, next, broken⟩
    else
      (plainParts flow least next).map fun more =>
        if more.pieces.isEmpty then ⟨first.map .solid, more.stop, broken⟩
        else ⟨first.map .solid ++ gap.map .ofChar ++ more.pieces, more.stop, more.broken⟩
termination_by cur.rest.length
decreasing_by
  simp only [Bool.or_eq_true, decide_eq_true_eq, not_or] at _h
  have hg := List.length_pos_iff.mpr _h.1
  have hle := (List.takeWhile_prefix (l := last.rest) fun c => isBlank c || isBreak c).length_le
  have hl : last.rest.length ≤ cur.rest.length := by
    simp only [last, Cursor.rest_skip, List.length_drop]
    omega
  show (last.skip gap.length).rest.length < _
  rw [Cursor.rest_skip, List.length_drop]
  simp only [gap] at hg ⊢
  omega

/-- The text of a plain scalar, the place of what follows, and whether a line break stands between
them. -/
def plain? (flow : Bool) (least : Nat) (cur : Cursor) : Option (String × Cursor × Bool) :=
  (plainParts flow least cur).map fun parts => (fold parts.pieces, parts.stop, parts.broken)

end ByteMachine.Yaml.Scalar
