import ByteMachine.Instruction.Basic
import ByteMachine.Text.Style

/-!
# Disassembly

The text of an instruction in columns: the mnemonic in red, seven characters wide, then registers in
blue, four characters wide each, and a byte or an address in yellow, in base sixteen. An instruction
without a number keeps both register columns, which may be blank.
-/

namespace ByteMachine

namespace Instruction

/-- The column of the mnemonic. -/
def nameSpan (i : Instruction) : Text.Span := ⟨[.red], Text.alignLeft 7 i.mnemonic.name⟩

/-- The columns of two registers, of which either may be missing. -/
def registerSpans (first second : Option Register) : List Text.Span :=
  let column (r : Option Register) : String := Text.alignLeft 4 (r.elim "" Register.name)
  [⟨[.blue], column first ++ " " ++ column second⟩]

/-- The columns of a register and a byte. -/
def immediateSpans (r : Register) (value : UInt8) : List Text.Span :=
  [⟨[.blue], Text.alignLeft 4 r.name⟩, ⟨[], " "⟩, ⟨[.yellow], "0x" ++ Text.hexPadded 2 value.toNat⟩]

/-- The column of an address. -/
def addressSpans (address : UInt16) : List Text.Span :=
  [⟨[.yellow], "0x" ++ Text.hexPadded 3 address.toNat⟩]

/-- The columns of the operands. -/
def operandSpans : Instruction → List Text.Span
  | .halt | .ret | .nop => registerSpans none none
  | .setImmediate target value => immediateSpans target value
  | .setRegister target source => registerSpans (some target) (some source)
  | .locate address | .jump address | .jumpIf address | .call address => addressSpans address
  | .load r | .store r | .read r | .write r => registerSpans (some r) none
  | .arithmetic _ left right | .compare _ left right => registerSpans (some left) (some right)

/-- The text of the instruction. -/
def disassemble (i : Instruction) : String := Text.render (i.nameSpan :: i.operandSpans)

end Instruction

end ByteMachine
