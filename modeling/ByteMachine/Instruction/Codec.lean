import ByteMachine.Instruction.Basic
import ByteMachine.Word

/-!
# Instructions as words

`toWord` packs an instruction into a word and `ofWord?` reads it back. A register that an instruction
sets at once stands in the second nibble; the register that it copies from is packed as a whole byte. A
packed address keeps twelve bits. A word is undecodable when its opcode, or the number of its
operation, means nothing.

Main statements: `length_toBytes`, `toBytes_eq`.
-/

namespace ByteMachine

namespace Instruction

/-- The number of a load among the memory instructions, and of a read among the transfers. -/
def inward : UInt8 := 0

/-- The number of a store among the memory instructions, and of a write among the transfers. -/
def outward : UInt8 := 1

/-- The word of an instruction. -/
def toWord (i : Instruction) : UInt16 :=
  let opcode := i.opcode.code
  match i with
  | .halt | .ret | .nop => opcode.toUInt16
  | .setImmediate target value => Word.ofNibblesByte opcode target.toByte value
  | .setRegister target source => Word.ofNibblesByte opcode target.toByte source.toByte
  | .locate address | .jump address | .jumpIf address | .call address =>
    Word.ofNibbleAddress opcode address
  | .load target => Word.ofNibbles opcode inward target.toByte 0
  | .store source => Word.ofNibbles opcode outward source.toByte 0
  | .arithmetic op left right => Word.ofNibbles opcode op.code left.toByte right.toByte
  | .read target => Word.ofNibbles opcode inward target.toByte 0
  | .write source => Word.ofNibbles opcode outward source.toByte 0
  | .compare relation left right => Word.ofNibbles opcode relation.code left.toByte right.toByte

/-- The two bytes of an instruction, the low one first. -/
def toBytes (i : Instruction) : List UInt8 := Word.toBytes i.toWord

/-- The instruction of the readings of a word. -/
def ofFields? (f : Fields) : Option Instruction :=
  let first := Register.ofNibble f.arg1
  let second := Register.ofNibble f.arg2
  match Opcode.ofCode? f.opcode with
  | none => none
  | some .halt => some .halt
  | some .setImmediate => some (.setImmediate (Register.ofNibble f.op) f.value)
  | some .setRegister => some (.setRegister (Register.ofNibble f.op) first)
  | some .locate => some (.locate f.address)
  | some .memory =>
    if f.op = inward then some (.load first)
    else if f.op = outward then some (.store first)
    else none
  | some .arithmetic => (Operation.ofCode? f.op).map (.arithmetic · first second)
  | some .transfer =>
    if f.op = inward then some (.read first)
    else if f.op = outward then some (.write first)
    else none
  | some .compare => (Relation.ofCode? f.op).map (.compare · first second)
  | some .jump => some (.jump f.address)
  | some .jumpIf => some (.jumpIf f.address)
  | some .call => some (.call f.address)
  | some .ret => some .ret
  | some .nop => some .nop

/-- The instruction of a word. -/
def ofWord? (w : UInt16) : Option Instruction := ofFields? (Fields.ofWord w)

theorem length_toBytes (i : Instruction) : i.toBytes.length = 2 := rfl

theorem toBytes_eq (i : Instruction) : i.toBytes = [i.toWord.toUInt8, (i.toWord >>> 8).toUInt8] := rfl

end Instruction

end ByteMachine
