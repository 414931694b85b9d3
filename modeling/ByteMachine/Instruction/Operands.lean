import ByteMachine.Instruction.Basic

/-!
# Operands of instructions

The operands of an instruction in the order in which source text has them: registers, and at the end a
byte or an address, as a number.

Main statement: `length_operands` (there are as many as the mnemonic takes).
-/

namespace ByteMachine

/-- An operand of an instruction. -/
inductive Operand where
  | register (r : Register)
  | number (n : Nat)
  deriving DecidableEq, Repr

namespace Instruction

/-- The operands, in order. -/
def operands : Instruction → List Operand
  | .halt | .ret | .nop => []
  | .setImmediate target value => [.register target, .number value.toNat]
  | .setRegister target source => [.register target, .register source]
  | .locate a | .jump a | .jumpIf a | .call a => [.number a.toNat]
  | .load r | .store r | .read r | .write r => [.register r]
  | .arithmetic _ left right | .compare _ left right => [.register left, .register right]

/-- The address of the instruction, if it has one. -/
def address? : Instruction → Option UInt16
  | .locate a | .jump a | .jumpIf a | .call a => some a
  | _ => none

theorem length_operands (i : Instruction) : i.operands.length = i.mnemonic.arity := by
  cases i <;> rfl

end Instruction

end ByteMachine
