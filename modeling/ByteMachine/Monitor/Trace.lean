import ByteMachine.Instruction.Codec
import ByteMachine.Instruction.Disassembly
import ByteMachine.Machine.State
import ByteMachine.Source.SourceMap

/-!
# Traces

One line for each cycle: the tick, the address, the word, its disassembly and, if a source map has the
address, the source line beside its number.
-/

namespace ByteMachine

/-- A trace, with the source map of the program if there is one. -/
structure Trace where
  sourceMap : Option Source.SourceMap
  deriving DecidableEq, Repr

namespace Trace

/-- The note of the source line at an address. -/
def note (t : Trace) (address : UInt16) : String :=
  match t.sourceMap.bind (·.find? address.toNat) with
  | none => ""
  | some p =>
    " " ++ Text.styled [.dim] ("; " ++ Text.decimalPadded 4 (p.line + 1) ++ ": " ++ p.text)

/-- The disassembly of a word; a word that is no instruction shows as question marks. -/
def disassembly (word : UInt16) : String :=
  match Instruction.ofWord? word with
  | some i => i.disassemble
  | none => Text.styled [.red, .bold] "????"

/-- The line of a cycle. -/
def line (t : Trace) (tick : UInt64) (address word : UInt16) : String :=
  "[" ++ Text.alignRight '0' 4 (Text.decimal tick.toNat) ++ "] " ++ Text.hexPadded 3 address.toNat ++
    ": " ++ Text.hexPadded 4 word.toNat ++ "  " ++ disassembly word ++ t.note address

/-- The line at the end of a run. -/
def closing (s : State) : String :=
  Text.styled [.green, .bold] "done" ++ " after " ++ Text.decimal s.ticks.toNat ++ " ticks, pc = 0x" ++
    Text.hexPadded 3 s.pc.toNat ++ "\n"

end Trace

end ByteMachine
