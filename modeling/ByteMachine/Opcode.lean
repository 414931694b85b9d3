/-!
# Opcodes

The thirteen values of the lowest nibble of an instruction word that mean something. The values 13, 14
and 15 mean nothing.

Main statement: `ofCode?_eq_some_iff`.
-/

namespace ByteMachine

/-- What an instruction word is about. -/
inductive Opcode where
  | halt
  | setImmediate
  | setRegister
  | locate
  | memory
  | arithmetic
  | transfer
  | compare
  | jump
  | jumpIf
  | call
  | ret
  | nop
  deriving DecidableEq, Repr

namespace Opcode

/-- The opcodes in the order of their codes. -/
def all : List Opcode :=
  [.halt, .setImmediate, .setRegister, .locate, .memory, .arithmetic, .transfer, .compare, .jump,
    .jumpIf, .call, .ret, .nop]

/-- The number of the opcode. -/
def code : Opcode → UInt8
  | .halt => 0x0
  | .setImmediate => 0x1
  | .setRegister => 0x2
  | .locate => 0x3
  | .memory => 0x4
  | .arithmetic => 0x5
  | .transfer => 0x6
  | .compare => 0x7
  | .jump => 0x8
  | .jumpIf => 0x9
  | .call => 0xA
  | .ret => 0xB
  | .nop => 0xC

/-- The opcode of a number. -/
def ofCode? (n : UInt8) : Option Opcode := all.find? (·.code == n)

theorem mem_all (o : Opcode) : o ∈ all := by cases o <;> decide

theorem ofCode?_code (o : Opcode) : ofCode? o.code = some o := by cases o <;> rfl

theorem ofCode?_eq_some_iff {n : UInt8} {o : Opcode} : ofCode? n = some o ↔ n = o.code := by
  constructor
  · intro h
    have found := List.find?_some h
    exact (beq_iff_eq.mp found).symm
  · rintro rfl
    exact ofCode?_code o

end Opcode

end ByteMachine
