import Mathlib.Tactic.IntervalCases
import ByteMachine.Image
import ByteMachine.Instruction.Codec
import ByteMachine.Instruction.Operands

/-!
# Words read back

Each way to pack a word puts its operands where the readings of the word look for them, cut to the bits
that they have there. So a packed instruction reads back, with its address reduced to twelve bits
(`ofWord?_toWord`), and as it is if its address has no more (`ofWord?_toWord_of_le`).
-/

namespace ByteMachine

/-! ### The readings of packed words -/

namespace Fields

variable (a b c d byte : UInt8) (address : UInt16)

@[simp] theorem opcode_ofWord_toUInt16 : (ofWord a.toUInt16).opcode = a &&& 0xF := by
  apply UInt8.toBitVec_inj.mp
  ext i hi
  interval_cases i <;> simp [ofWord]

@[simp] theorem opcode_ofWord_ofNibbles : (ofWord (Word.ofNibbles a b c d)).opcode = a &&& 0xF := by
  apply UInt8.toBitVec_inj.mp
  ext i hi
  interval_cases i <;> simp [ofWord, Word.ofNibbles, Word.nibble]

@[simp] theorem op_ofWord_ofNibbles : (ofWord (Word.ofNibbles a b c d)).op = b &&& 0xF := by
  apply UInt8.toBitVec_inj.mp
  ext i hi
  interval_cases i <;> simp [ofWord, Word.ofNibbles, Word.nibble]

@[simp] theorem arg1_ofWord_ofNibbles : (ofWord (Word.ofNibbles a b c d)).arg1 = c &&& 0xF := by
  apply UInt8.toBitVec_inj.mp
  ext i hi
  interval_cases i <;> simp [ofWord, Word.ofNibbles, Word.nibble]

@[simp] theorem arg2_ofWord_ofNibbles : (ofWord (Word.ofNibbles a b c d)).arg2 = d &&& 0xF := by
  apply UInt8.toBitVec_inj.mp
  ext i hi
  interval_cases i <;> simp [ofWord, Word.ofNibbles, Word.nibble]

@[simp] theorem opcode_ofWord_ofNibblesByte :
    (ofWord (Word.ofNibblesByte a b byte)).opcode = a &&& 0xF := by
  apply UInt8.toBitVec_inj.mp
  ext i hi
  interval_cases i <;> simp [ofWord, Word.ofNibblesByte, Word.nibble]

@[simp] theorem op_ofWord_ofNibblesByte : (ofWord (Word.ofNibblesByte a b byte)).op = b &&& 0xF := by
  apply UInt8.toBitVec_inj.mp
  ext i hi
  interval_cases i <;> simp [ofWord, Word.ofNibblesByte, Word.nibble]

@[simp] theorem value_ofWord_ofNibblesByte : (ofWord (Word.ofNibblesByte a b byte)).value = byte := by
  apply UInt8.toBitVec_inj.mp
  ext i hi
  interval_cases i <;> simp [ofWord, Word.ofNibblesByte, Word.nibble]

@[simp] theorem arg1_ofWord_ofNibblesByte :
    (ofWord (Word.ofNibblesByte a b byte)).arg1 = byte &&& 0xF := by
  apply UInt8.toBitVec_inj.mp
  ext i hi
  interval_cases i <;> simp [ofWord, Word.ofNibblesByte, Word.nibble]

@[simp] theorem opcode_ofWord_ofNibbleAddress :
    (ofWord (Word.ofNibbleAddress a address)).opcode = a &&& 0xF := by
  apply UInt8.toBitVec_inj.mp
  ext i hi
  interval_cases i <;> simp [ofWord, Word.ofNibbleAddress, Word.nibble]

@[simp] theorem address_ofWord_ofNibbleAddress :
    (ofWord (Word.ofNibbleAddress a address)).address = address &&& 0x0FFF := by
  apply UInt16.toBitVec_inj.mp
  ext i hi
  interval_cases i <;> simp [ofWord, Word.ofNibbleAddress, Word.nibble]

end Fields

/-! ### Numbers in some bits -/

theorem Word.and_eq_mod (a : UInt16) : a &&& 0x0FFF = a % 4096 := by
  apply UInt16.toNat_inj.mp
  rw [UInt16.toNat_and, UInt16.toNat_mod]
  exact Nat.and_two_pow_sub_one_eq_mod a.toNat 12

@[simp] theorem Opcode.ofCode?_code_and (o : Opcode) : ofCode? (o.code &&& 0xF) = some o := by
  cases o <;> rfl

@[simp] theorem Operation.ofCode?_code_and (op : Operation) : ofCode? (op.code &&& 0xF) = some op := by
  cases op <;> rfl

@[simp] theorem Relation.ofCode?_code_and (r : Relation) : ofCode? (r.code &&& 0xF) = some r := by
  cases r <;> rfl

@[simp] theorem Register.ofNibble_toByte_and (r : Register) : ofNibble (r.toByte &&& 0xF) = r := by
  revert r
  decide

namespace Instruction

@[simp] theorem inward_and : inward &&& 0xF = inward := rfl

@[simp] theorem outward_and : outward &&& 0xF = outward := rfl

@[simp] theorem outward_ne_inward : outward ≠ inward := by decide

/-! ### Instructions -/

/-- **A packed instruction reads back**, with twelve bits of its address. -/
theorem ofWord?_toWord (i : Instruction) :
    ofWord? i.toWord = some (i.mapAddress (· &&& 0x0FFF)) := by
  cases i <;> simp [ofWord?, ofFields?, toWord, mapAddress, opcode]

theorem and_eq_self_of_le {a : UInt16} (h : a.toNat ≤ addressMax.toNat) : a &&& 0x0FFF = a := by
  have below : a.toNat < 4096 := Nat.lt_of_le_of_lt h (by decide)
  apply UInt16.toNat_inj.mp
  rw [Word.and_eq_mod, UInt16.toNat_mod]
  exact Nat.mod_eq_of_lt below

@[simp] theorem mnemonic_mapAddress (i : Instruction) (f : UInt16 → UInt16) :
    (i.mapAddress f).mnemonic = i.mnemonic := by
  cases i <;> rfl

@[simp] theorem address?_mapAddress (i : Instruction) (f : UInt16 → UInt16) :
    (i.mapAddress f).address? = i.address?.map f := by
  cases i <;> rfl

theorem mapAddress_eq_self {i : Instruction} {f : UInt16 → UInt16}
    (h : ∀ a, i.address? = some a → f a = a) : i.mapAddress f = i := by
  cases i with
  | locate a | jump a | jumpIf a | call a => rw [mapAddress, h a rfl]
  | _ => rfl

/-- **An instruction within the memory reads back** from its word as it is. -/
theorem ofWord?_toWord_of_le {i : Instruction}
    (h : ∀ a, i.address? = some a → a.toNat ≤ addressMax.toNat) : ofWord? i.toWord = some i := by
  rw [ofWord?_toWord, mapAddress_eq_self fun a ha => and_eq_self_of_le (h a ha)]

end Instruction

end ByteMachine
