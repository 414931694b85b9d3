import ByteMachine.Instruction.Disassembly
import ByteMachine.Source.Program

/-!
# Listings

A source text beside the bytes of its lines, one row a line between a header and a footer. The entries
of a source map are taken in order: an entry belongs to the row of its line, and its bytes reach up to
the address of the next entry. At most four bytes are shown, with a plus sign for more.

Bytes are taken by `slice?`, which there is none of out of range. An entry without a slice has no bytes. The
slice behind the tag must be there, and it always is (`listing?_eq_some`).
-/

namespace ByteMachine.Source

open Text

/-- The bytes from one offset up to another. There are none if the offsets are out of order or the second
is behind the last byte. -/
def slice? (bytes : List UInt8) (start stop : Nat) : Option (List UInt8) :=
  if start ≤ stop ∧ stop ≤ bytes.length then some ((bytes.take stop).drop start) else none

theorem slice?_eq_some {bytes : List UInt8} {start stop : Nat} (h : start ≤ stop)
    (hstop : stop ≤ bytes.length) : slice? bytes start stop = some ((bytes.take stop).drop start) :=
  if_pos ⟨h, hstop⟩

theorem slice?_eq_none {bytes : List UInt8} {start stop : Nat} (h : stop < start) :
    slice? bytes start stop = none :=
  if_neg fun both => Nat.not_le.mpr h both.1

namespace Listing

/-- The first row, with the path of the source in it. -/
def header (path : String) : String :=
  String.ofList (List.replicate 19 '-') ++ "+------[" ++ path ++ "]" ++
    String.ofList (List.replicate (45 - path.utf8ByteSize) '-')

/-- The last row. -/
def footer : String :=
  String.ofList (List.replicate 19 '-') ++ "+" ++ String.ofList (List.replicate 53 '-')

/-- The bytes of an entry: from its address to the next entry, or to the end of the payload. -/
def entryBytes (payload : List UInt8) (start : Nat) (next : Option Nat) : List UInt8 :=
  (slice? payload start (min (next.getD payload.length) payload.length)).getD []

/-- The disassembly of a line's bytes, if the line is an instruction of two bytes. -/
def disassembly (kind : LineKind) (bytes : List UInt8) : String :=
  match kind, bytes with
  | .instruction, [low, high] =>
    match Instruction.ofWord? (Word.ofBytes low high) with
    | some i => i.disassemble
    | none => styled [.red, .bold] "??"
  | _, _ => ""

/-- The row of a line with bytes. -/
def entryRow (line : Nat) (raw : List Char) (start : Nat) (bytes : List UInt8) : String :=
  let shown := String.intercalate " " ((bytes.take 4).map fun b => hexPadded 2 b.toNat)
  let more := if 4 < bytes.length then "+" else " "
  "[" ++ styled [.green] (hexPadded 3 start) ++ "] " ++ alignLeft 11 shown ++ more ++ "| " ++
    decimalPadded 4 (line + 1) ++ ": " ++ String.ofList (trim raw) ++ " " ++
    disassembly (LineKind.ofLine raw) bytes

/-- The row of a line without bytes. -/
def plainRow (line : Nat) (raw : List Char) : String :=
  let text := String.ofList (trim raw)
  let shown := match LineKind.ofLine raw with
    | .label _ => styled [.green] text
    | _ => text
  String.ofList (List.replicate 19 ' ') ++ "| " ++ decimalPadded 4 (line + 1) ++ ": " ++ shown

/-- The rows of the lines from the given index on, with the entries that are still to be shown. -/
def rows (payload : List UInt8) (line : Nat) : List (List Char) → SourceMap → List String
  | [], _ => []
  | raw :: rest, [] => plainRow line raw :: rows payload (line + 1) rest []
  | raw :: rest, (start, p) :: entries =>
    if p.line = line then
      entryRow line raw start (entryBytes payload start (entries.head?.map Prod.fst)) ::
        rows payload (line + 1) rest entries
    else plainRow line raw :: rows payload (line + 1) rest ((start, p) :: entries)

theorem length_rows (payload : List UInt8) (line : Nat) (raws : List (List Char)) (m : SourceMap) :
    (rows payload line raws m).length = raws.length := by
  induction raws generalizing line m with
  | nil => simp [rows]
  | cons raw rest ih =>
    cases m with
    | nil => simp [rows, ih]
    | cons e entries =>
      simp only [rows]
      split <;> simp [ih]

end Listing

/-- The listing of a source text and a program, if the slice behind the tag is in range. -/
def listing? (path source : String) (program : Program) : Option (List String) :=
  let image := program.image
  (slice? image (min Image.tag.length image.length) image.length).map fun payload =>
    [Listing.header path] ++ Listing.rows payload 0 (lines source.toList) program.sourceMap ++
      [Listing.footer]

/-- The listing of a source text and a program. -/
def listing (path source : String) (program : Program) : List String :=
  (listing? path source program).getD []

theorem slice?_behind_tag (image : List UInt8) :
    slice? image (min Image.tag.length image.length) image.length = some (Image.payload image) := by
  rw [slice?_eq_some (Nat.min_le_right _ _) (Nat.le_refl _), List.take_length, Image.payload]
  rcases Nat.le_total Image.tag.length image.length with h | h
  · rw [Nat.min_eq_left h]
  · rw [Nat.min_eq_right h, List.drop_length, List.drop_eq_nil_of_le h]

/-- The slice behind the tag is in range for every image. -/
theorem listing?_eq_some (path source : String) (program : Program) : listing? path source program =
    some (Listing.header path :: (Listing.rows (Image.payload program.image) 0 (lines source.toList)
      program.sourceMap ++ [Listing.footer])) := by
  rw [listing?, slice?_behind_tag]
  rfl

theorem listing_eq (path source : String) (program : Program) : listing path source program =
    Listing.header path :: (Listing.rows (Image.payload program.image) 0 (lines source.toList)
      program.sourceMap ++ [Listing.footer]) := by
  rw [listing, listing?_eq_some, Option.getD_some]

/-- There is one row for each line, and two more. -/
theorem length_listing (path source : String) (program : Program) :
    (listing path source program).length = (lines source.toList).length + 2 := by
  simp [listing_eq, Listing.length_rows]

end ByteMachine.Source
