import ByteMachine.Machine.State
import ByteMachine.Text.Quoted

/-!
# Inspection of states

Tables of the machine at chosen addresses: the registers, on request the call stack, and some memory
cells. The registers stand in four columns, beside the flag and the number of bytes read, which is shown
as 99 from there on.

Main statement: `find?_ofPairs` (of several watches at one address the last counts).
-/

namespace ByteMachine

/-- What is shown at an address besides the registers. -/
structure Watch where
  /-- The call stack is shown. -/
  stack : Bool
  /-- The addresses of the cells that are shown. -/
  memory : List UInt16
  deriving DecidableEq, Repr

/-- Watches by address; no address occurs twice. -/
abbrev WatchList := List (UInt16 × Watch)

namespace WatchList

/-- The watch at an address. -/
def find? (l : WatchList) (address : UInt16) : Option Watch := l.lookup address

/-- The watches of the pairs; of several at one address the last counts. -/
def ofPairs (pairs : List (UInt16 × Watch)) : WatchList :=
  pairs.foldr (fun pair l => if (find? l pair.1).isSome then l else pair :: l) []

theorem find?_ofPairs_cons (pair : UInt16 × Watch) (pairs : List (UInt16 × Watch))
    (address : UInt16) :
    (ofPairs (pair :: pairs)).find? address =
      ((ofPairs pairs).find? address).or (if address = pair.1 then some pair.2 else none) := by
  obtain ⟨a, w⟩ := pair
  show (if (find? (ofPairs pairs) a).isSome then ofPairs pairs else (a, w) :: ofPairs pairs).find?
    address = _
  by_cases h : address = a
  · subst h
    cases hf : (ofPairs pairs).find? address with
    | none => simp [find?]
    | some v => simp [hf]
  · cases hf : ((ofPairs pairs).find? a) with
    | none => simp [find?, List.lookup_cons, h, beq_false_of_ne h]
    | some v => simp [h]

/-- The watch at an address is the last one that the pairs give it. -/
theorem find?_ofPairs (pairs : List (UInt16 × Watch)) (address : UInt16) :
    (ofPairs pairs).find? address = pairs.reverse.lookup address := by
  induction pairs with
  | nil => rfl
  | cons pair pairs ih =>
    rw [find?_ofPairs_cons, ih, List.reverse_cons, List.lookup_append]
    obtain ⟨a, w⟩ := pair
    by_cases h : address = a
    · simp [h]
    · simp [List.lookup_cons, h, beq_false_of_ne h]

end WatchList

/-- A request for tables. -/
structure Inspector where
  /-- The file that the watches were read from. -/
  file : Option String
  /-- The registers are shown in every cycle. -/
  always : Bool
  watches : WatchList
  deriving DecidableEq, Repr

namespace Inspector

open Text

/-- The line above and below a table. -/
def rule : String := " +---------+---------+---------+---------+-------+\n"

/-- The cell of a register. -/
def registerCell (s : State) (r : Register) : String :=
  alignRight ' ' 4 r.name ++ ": " ++ hexPadded 2 (s.get r).toNat

/-- The cell at the end of a row of registers. -/
def extraCell (s : State) (row : Nat) : String :=
  match row with
  | 0 => "f: " ++ (if s.flag then "1" else "0") ++ " "
  | 1 => "i: " ++ alignLeft 2 (decimal (min s.cursor 99))
  | _ => "     "

/-- A row of registers: every fourth one from the row's number on. -/
def registerRow (s : State) (row : Nat) : String :=
  let cells := [0, 4, 8, 12].map fun column => registerCell s (Register.ofIndex (column + row))
  " |" ++ String.intercalate " |" cells ++ " | " ++ extraCell s row ++ " |\n"

/-- The table of the registers. -/
def registers (s : State) : String :=
  rule ++ String.join ([0, 1, 2, 3].map (registerRow s)) ++ rule

/-- The row of a return address at a depth. -/
def stackRow (depth : Nat) (address : UInt16) : String :=
  " | #" ++ alignLeft 4 (decimal depth) ++ " ret 0x" ++ hexPadded 3 address.toNat ++
    alignRight ' ' 30 "" ++ " |\n"

/-- The table of the call stack, the innermost call first. -/
def stack (s : State) : String :=
  let rows := s.calls.toList.mapIdx stackRow
  String.join rows.reverse ++ rule

/-- The row of a memory cell. -/
def memoryRow (s : State) (address : UInt16) : String :=
  " | 0x" ++ hexPadded 3 address.toNat ++ " : " ++ hexPadded 2 (s.byteAt address.toNat).toNat ++
    alignRight ' ' 33 "" ++ " |\n"

/-- The table of some memory cells; there is none for no cells. -/
def memory (s : State) (addresses : List UInt16) : String :=
  String.join (addresses.map (memoryRow s)) ++ (if addresses.isEmpty then "" else rule)

/-- The lines before a run. -/
def banner (i : Inspector) : String :=
  (if i.always then " * Dump all\n" else "") ++
    match i.file with
    | none => ""
    | some file => " * Dump[" ++ decimal i.watches.length ++ "] " ++ quote file ++ "\n"

/-- The tables at an address. -/
def tables (i : Inspector) (address : UInt16) (s : State) : String :=
  match i.watches.find? address with
  | some watch => registers s ++ (if watch.stack then stack s else "") ++ memory s watch.memory
  | none => if i.always then registers s else ""

end Inspector

end ByteMachine
