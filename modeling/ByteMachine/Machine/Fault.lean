import ByteMachine.Text.Numeral

/-!
# Faults

What ends a run before the program stops by itself, and the texts that say so. An address in a text has
at least three digits.
-/

namespace ByteMachine

/-- The largest number of calls without a return. -/
def callDepthMax : Nat := 1000

/-- Why a run ended. -/
inductive Fault where
  /-- A word that is no instruction. -/
  | unsupportedOperation (pc : UInt16) (opcode op : UInt8)
  /-- A return without a call. -/
  | noReturnAddress (pc : UInt16)
  /-- A call beyond the largest number of nested calls. -/
  | callsTooDeep
  /-- A read behind the last byte of the input. -/
  | endOfInput (pc : UInt16)
  /-- A cycle beyond the budget. -/
  | ticksExhausted (budget : UInt64)
  deriving DecidableEq, Repr

/-- An address in the text of a fault. -/
def Fault.address (pc : UInt16) : String := "0x" ++ Text.hexPadded 3 pc.toNat

/-- The text of the fault. -/
def Fault.message : Fault → String
  | .unsupportedOperation pc opcode op =>
    "Segmentation fault: unsupported operation " ++ Text.hex opcode.toNat ++ "/" ++
      Text.hex op.toNat ++ " at " ++ Fault.address pc
  | .noReturnAddress pc => "Segmentation fault: no return address at " ++ Fault.address pc
  | .callsTooDeep =>
    "Recursion limit exceeded: more than " ++ Text.decimal callDepthMax ++ " nested calls"
  | .endOfInput pc => "Read after end of input at " ++ Fault.address pc
  | .ticksExhausted budget =>
    "Resources exhausted: killed after " ++ Text.decimal budget.toNat ++ " ticks"

end ByteMachine
