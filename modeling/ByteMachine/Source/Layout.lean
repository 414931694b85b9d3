import ByteMachine.Text.Lines
import ByteMachine.Source.Error
import ByteMachine.Source.Labels
import ByteMachine.Source.Statement

/-!
# Layout

Each line of a source text is placed at an address before anything is encoded: an instruction takes two
bytes, data takes one byte for each argument, and other lines take none. So a label may be used before
the line that defines it.

Main statements: `length_place`, `place_append` (the second of two texts is placed behind the first).
-/

namespace ByteMachine.Source

open Text

/-- A line and the address where its bytes start. -/
structure PlacedLine where
  /-- The index of the line, from zero. -/
  line : Nat
  address : Nat
  /-- The line, without the blanks at its ends. -/
  text : String
  deriving DecidableEq, Repr

namespace PlacedLine

/-- What the line holds. -/
def kind (p : PlacedLine) : LineKind := LineKind.ofLine p.text.toList

/-- The statement of the line. -/
def statement (p : PlacedLine) : Statement := Statement.ofLine p.text.toList

/-- The line stands for bytes. -/
def holdsCode (p : PlacedLine) : Bool :=
  match p.kind with
  | .data | .instruction => true
  | .blank | .comment | .label _ => false

/-- The name that the line defines, and its address. -/
def definition? (p : PlacedLine) : Option (String × Nat) :=
  match p.kind with
  | .label name => some (name, p.address)
  | .blank | .comment | .data | .instruction => none

/-- The number of bytes that the line stands for. -/
def size (p : PlacedLine) : Nat :=
  match p.kind with
  | .data => p.statement.args.length
  | .instruction => 2
  | .blank | .comment | .label _ => 0

/-- An error in this line. -/
def error (p : PlacedLine) (cause : SourceError) : LocatedError := ⟨p.line, p.text, cause⟩

end PlacedLine

/-! ### Places -/

/-- The lines with their indices and addresses, from the given ones on. -/
def place (line address : Nat) : List (List Char) → List PlacedLine
  | [] => []
  | raw :: rest =>
    let p : PlacedLine := ⟨line, address, String.ofList (trim raw)⟩
    p :: place (line + 1) (address + p.size) rest

/-- The number of bytes that placed lines stand for. -/
def totalSize : List PlacedLine → Nat
  | [] => 0
  | p :: rest => p.size + totalSize rest

theorem length_place (line address : Nat) (raws : List (List Char)) :
    (place line address raws).length = raws.length := by
  induction raws generalizing line address with
  | nil => rfl
  | cons raw rest ih => simp [place, ih]

/-- The second of two texts is placed behind the first. -/
theorem place_append (line address : Nat) (raws raws' : List (List Char)) :
    place line address (raws ++ raws') =
      place line address raws ++
        place (line + raws.length) (address + totalSize (place line address raws)) raws' := by
  induction raws generalizing line address with
  | nil => simp [place, totalSize]
  | cons raw rest ih =>
    simp only [List.cons_append, place, ih, totalSize, List.length_cons]
    congr 3 <;> omega

/-! ### Layouts -/

/-- The first line that defines a name again, where some names have been defined before. -/
def redefinition? (seen : List String) : List PlacedLine → Option LocatedError
  | [] => none
  | p :: rest =>
    match p.definition? with
    | none => redefinition? seen rest
    | some (name, _) =>
      if seen.contains name then some (p.error (.redefinedLabel name))
      else redefinition? (name :: seen) rest

/-- The labels of a source text and its lines of code. -/
structure Layout where
  labels : Labels
  placed : List PlacedLine
  deriving DecidableEq, Repr

/-- All lines of a source text in their places. -/
def placedLines (source : String) : List PlacedLine := place 0 0 (lines source.toList)

/-- The layout of a source text; it fails only if a label is defined twice. -/
def Layout.ofSource (source : String) : Except LocatedError Layout :=
  let all := placedLines source
  match redefinition? [] all with
  | some e => .error e
  | none => .ok { labels := all.filterMap PlacedLine.definition?, placed := all.filter PlacedLine.holdsCode }

end ByteMachine.Source
