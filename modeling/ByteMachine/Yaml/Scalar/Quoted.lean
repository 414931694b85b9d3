import ByteMachine.Text.Numeral
import ByteMachine.Yaml.Cursor
import ByteMachine.Yaml.Folding

/-!
# Quoted scalars

Between single quotes a quote is written twice, and nothing else is escaped; between double quotes a
backslash starts an escape. No mark of a document stands between quotes.
-/

namespace ByteMachine.Yaml.Scalar

/-- What stands between quotes: the closing quote, or a part with the number of its characters after
the first. -/
inductive QuotedItem where
  | close
  | part (piece : Piece) (more : Nat)
  deriving DecidableEq, Repr

/-- What stands between single quotes. -/
def singleQuoted? : List Char → Option QuotedItem
  | [] => none
  | '\'' :: '\'' :: _ => some (.part (.solid '\'') 1)
  | '\'' :: _ => some .close
  | c :: _ => some (.part (.ofChar c) 0)

/-- The character of an escape of one letter. -/
def simpleEscape? (letter : Char) : Option Char :=
  [('0', '\x00'), ('a', '\x07'), ('b', '\x08'), ('t', '\t'), ('\t', '\t'), ('n', '\n'), ('v', '\x0b'),
    ('f', '\x0c'), ('r', '\r'), ('e', '\x1b'), (' ', ' '), ('"', '"'), ('/', '/'), ('\\', '\\'),
    ('N', '\u0085'), ('_', '\u00a0'), ('L', '\u2028'), ('P', '\u2029')].lookup letter

/-- The number of digits of an escape that names a code point. -/
def escapeWidth? (letter : Char) : Option Nat := [('x', 2), ('u', 4), ('U', 8)].lookup letter

/-- The part that is escaped, and the number of characters after the backslash. -/
def escape? : List Char → Option (Piece × Nat)
  | [] => none
  | c :: rest =>
    if isBreak c then some (.continuation, 1)
    else
      match simpleEscape? c, escapeWidth? c with
      | some d, _ => some (.solid d, 1)
      | none, none => none
      | none, some width => do
        let ds := rest.take width
        if ds.length < width then none
        else
          let n ← Text.read? 16 ds
          if n.isValidChar then some (.solid (Char.ofNat n), width + 1) else none

/-- What stands between double quotes. -/
def doubleQuoted? : List Char → Option QuotedItem
  | [] => none
  | '"' :: _ => some .close
  | '\\' :: rest => (escape? rest).map fun (piece, width) => .part piece width
  | c :: _ => some (.part (.ofChar c) 0)

/-- The parts up to the closing quote, and the place after it. -/
def quotedParts (item? : List Char → Option QuotedItem) (cur : Cursor) :
    Option (List Piece × Cursor) :=
  if _h : cur.atEnd then none
  else
    match item? cur.rest with
    | none => none
    | some .close => some ([], cur.skip 1)
    | some (.part piece more) =>
      (quotedParts item? (cur.skip (more + 1))).map fun (pieces, cur) => (piece :: pieces, cur)
termination_by cur.rest.length
decreasing_by
  exact Cursor.length_rest_skip_lt (Cursor.rest_ne_nil_of_atEnd (Bool.not_eq_true _ ▸ _h)) more

/-- The text of a quoted scalar, from the place after its opening quote, and the place after it. -/
def quoted? (item? : List Char → Option QuotedItem) (cur : Cursor) : Option (String × Cursor) :=
  (quotedParts item? cur).map fun (pieces, cur) => (fold pieces, cur)

end ByteMachine.Yaml.Scalar
