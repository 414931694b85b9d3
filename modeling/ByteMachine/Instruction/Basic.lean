import ByteMachine.Register
import ByteMachine.Opcode
import ByteMachine.Mnemonic

/-!
# Instructions

The fifteen forms of instruction, each with the mnemonic that writes it and the opcode that its word
carries.
-/

namespace ByteMachine

/-- An instruction with its operands. -/
inductive Instruction where
  /-- Stops the machine. -/
  | halt
  /-- Sets a register to a byte. -/
  | setImmediate (target : Register) (value : UInt8)
  /-- Copies the second register to the first. -/
  | setRegister (target source : Register)
  /-- Points the pointer registers at an address. -/
  | locate (address : UInt16)
  /-- Copies the cell at the pointer to a register. -/
  | load (target : Register)
  /-- Copies a register to the cell at the pointer. -/
  | store (source : Register)
  /-- Applies an operation to two registers; the result goes to the first. -/
  | arithmetic (op : Operation) (left right : Register)
  /-- Takes the next byte of the input. -/
  | read (target : Register)
  /-- Appends a register to the output. -/
  | write (source : Register)
  /-- Sets the flag to the comparison of two registers. -/
  | compare (relation : Relation) (left right : Register)
  /-- Goes on at an address. -/
  | jump (address : UInt16)
  /-- Goes on at an address if the flag is set. -/
  | jumpIf (address : UInt16)
  /-- Goes on at an address and remembers where to return. -/
  | call (address : UInt16)
  /-- Goes back to the innermost return address. -/
  | ret
  /-- Does nothing. -/
  | nop
  deriving DecidableEq, Repr

namespace Instruction

/-- The opcode in the word of the instruction. -/
def opcode : Instruction → Opcode
  | .halt => .halt
  | .setImmediate .. => .setImmediate
  | .setRegister .. => .setRegister
  | .locate _ => .locate
  | .load _ | .store _ => .memory
  | .arithmetic .. => .arithmetic
  | .read _ | .write _ => .transfer
  | .compare .. => .compare
  | .jump _ => .jump
  | .jumpIf _ => .jumpIf
  | .call _ => .call
  | .ret => .ret
  | .nop => .nop

/-- The mnemonic that writes the instruction. -/
def mnemonic : Instruction → Mnemonic
  | .halt => .halt
  | .setImmediate .. | .setRegister .. => .set
  | .locate _ => .locate
  | .load _ => .load
  | .store _ => .store
  | .arithmetic op .. => .arithmetic op
  | .read _ => .read
  | .write _ => .write
  | .compare relation .. => .compare relation
  | .jump _ => .jump
  | .jumpIf _ => .jumpIf
  | .call _ => .call
  | .ret => .ret
  | .nop => .nop

/-- The instruction with its address, if it has one, passed through `f`. -/
def mapAddress (f : UInt16 → UInt16) : Instruction → Instruction
  | .locate a => .locate (f a)
  | .jump a => .jump (f a)
  | .jumpIf a => .jumpIf (f a)
  | .call a => .call (f a)
  | i => i

end Instruction

end ByteMachine
