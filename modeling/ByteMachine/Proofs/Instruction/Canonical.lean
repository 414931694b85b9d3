import ByteMachine.Proofs.Instruction.Readings
import ByteMachine.Proofs.Instruction.RoundTrip

/-!
# Words of one instruction

Many words are read as the same instruction. They agree on the bits that matter to it
(`Instruction.mask`), and the word that the instruction is packed into has zeros in all others.

* `Instruction.toWord_of_isReadFrom`: packed again, an instruction has the bits of its word that matter.
* `Instruction.toWord_eq_iff`: two instructions have one word if they differ at most in the high nibble of
  an address.
* `Instruction.ofWord?_eq_some_iff`: a word is read as an instruction if the bits that matter are those of
  the instruction's own word.
* `Instruction.word_codec`: all of this, for all instructions, readings and words.
-/

namespace ByteMachine

/-! ### Nibbles -/

theorem Word.nibble_toUInt8 (v : UInt16) : nibble v.toUInt8 = v &&& 0xF := by
  apply UInt16.toBitVec_inj.mp
  ext i hi
  interval_cases i <;> simp [-UInt16.toUInt16_toUInt8, nibble]

theorem Word.toNat_nibble_lt (v : UInt16) : (v &&& 0xF).toUInt8.toNat < 16 := by
  rw [toUInt8_and, UInt8.toNat_ofNat']
  omega

theorem Word.nibble_of_lt {b : UInt8} (h : b.toNat < 16) : nibble b = b.toUInt16 := by
  apply UInt16.toNat_inj.mp
  rw [nibble, UInt16.toNat_and, UInt8.toNat_toUInt16]
  exact (Nat.and_two_pow_sub_one_eq_mod b.toNat 4).trans (Nat.mod_eq_of_lt h)

theorem Word.ofNibblesByte_of_lt (a b : UInt8) {c : UInt8} (h : c.toNat < 16) :
    ofNibblesByte a b c = ofNibbles a b c 0 := by
  have zero : nibble 0 <<< 12 = 0 := rfl
  rw [ofNibblesByte, ofNibbles, nibble_of_lt h, zero, UInt16.or_zero]

theorem Word.shiftRight_and (a b k : UInt16) : (a &&& b) >>> k = a >>> k &&& b >>> k := by
  apply UInt16.toNat_inj.mp
  simp only [UInt16.toNat_shiftRight, UInt16.toNat_and, Nat.shiftRight_and_distrib]

theorem Register.toByte_eq {r : Register} {b : UInt8} (h : r.val = b.toNat % 16) (hb : b.toNat < 16) :
    r.toByte = b := by
  rw [toByte, h, Nat.mod_eq_of_lt hb, UInt8.ofNat_toNat]

namespace Fields

variable (w : UInt16)

/-! ### Readings of words cut to some of their bits -/

theorem opcode_ofWord_and_000F : (ofWord (w &&& 0x000F)).opcode = (ofWord w).opcode := by
  simp only [ofWord, UInt16.and_assoc, UInt16.and_self]

theorem opcode_ofWord_and_0FFF : (ofWord (w &&& 0x0FFF)).opcode = (ofWord w).opcode := by
  have low : (0x0FFF : UInt16) &&& 0xF = 0xF := rfl
  simp only [ofWord, UInt16.and_assoc, low]

theorem op_ofWord_and_0FFF : (ofWord (w &&& 0x0FFF)).op = (ofWord w).op := by
  have low : (0x0FFF : UInt16) >>> 4 &&& 0xF = 0xF := rfl
  simp only [ofWord, Word.shiftRight_and, UInt16.and_assoc, low]

theorem arg1_ofWord_and_0FFF : (ofWord (w &&& 0x0FFF)).arg1 = (ofWord w).arg1 := by
  have low : (0x0FFF : UInt16) >>> 8 &&& 0xF = 0xF := rfl
  simp only [ofWord, Word.shiftRight_and, UInt16.and_assoc, low]

theorem arg2_ofWord_and_0FFF : (ofWord (w &&& 0x0FFF)).arg2 = 0 := by
  have none : (0x0FFF : UInt16) >>> 12 &&& 0xF = 0 := rfl
  simp only [ofWord, Word.shiftRight_and, UInt16.and_assoc, none, UInt16.and_zero]
  rfl

/-! ### Words packed from their readings -/

theorem toUInt16_opcode_ofWord : (ofWord w).opcode.toUInt16 = w &&& 0x000F := by
  have small : (ofWord w).opcode.toNat < 16 := Word.toNat_nibble_lt w
  rw [← Word.nibble_of_lt small, ofWord, Word.nibble_toUInt8, UInt16.and_assoc, UInt16.and_self]

theorem ofNibbles_ofWord :
    Word.ofNibbles (ofWord w).opcode (ofWord w).op (ofWord w).arg1 (ofWord w).arg2 = w := by
  simp only [ofWord, Word.ofNibbles, Word.nibble_toUInt8, UInt16.and_assoc, UInt16.and_self]
  apply UInt16.toBitVec_inj.mp
  ext i hi
  interval_cases i <;> simp

theorem ofNibbles_ofWord_zero :
    Word.ofNibbles (ofWord w).opcode (ofWord w).op (ofWord w).arg1 0 = w &&& 0x0FFF := by
  have packed := ofNibbles_ofWord (w &&& 0x0FFF)
  rwa [opcode_ofWord_and_0FFF, op_ofWord_and_0FFF, arg1_ofWord_and_0FFF, arg2_ofWord_and_0FFF] at packed

theorem ofNibblesByte_ofWord_value :
    Word.ofNibblesByte (ofWord w).opcode (ofWord w).op (ofWord w).value = w := by
  simp only [ofWord, Word.ofNibblesByte, Word.nibble_toUInt8, UInt16.and_assoc, UInt16.and_self]
  apply UInt16.toBitVec_inj.mp
  ext i hi
  interval_cases i <;> simp [-UInt16.toUInt16_toUInt8]

theorem ofNibbleAddress_ofWord :
    Word.ofNibbleAddress (ofWord w).opcode (ofWord w).address = w := by
  simp only [ofWord, Word.ofNibbleAddress, Word.nibble_toUInt8, UInt16.and_assoc, UInt16.and_self]
  apply UInt16.toBitVec_inj.mp
  ext i hi
  interval_cases i <;> simp

end Fields

namespace Instruction

/-! ### The bits that matter -/

/-- The bits of a word that matter to the instruction that it is read as: of some instructions the opcode
alone, of some all but the highest nibble. -/
def mask : Instruction → UInt16
  | .halt | .ret | .nop => 0x000F
  | .setRegister .. | .load _ | .store _ | .read _ | .write _ => 0x0FFF
  | .setImmediate .. | .locate _ | .arithmetic .. | .compare .. | .jump _ | .jumpIf _ | .call _ => 0xFFFF

/-- **Packed again**, an instruction has the bits of its word that matter, and zeros in all others. -/
theorem toWord_of_isReadFrom {w : UInt16} {i : Instruction} (h : i.IsReadFrom (Fields.ofWord w)) :
    i.toWord = w &&& i.mask := by
  have opcode := h.opcode_eq
  have whole : w &&& 0xFFFF = w := UInt16.and_neg_one
  have op_lt : (Fields.ofWord w).op.toNat < 16 := Word.toNat_nibble_lt _
  have arg1_lt : (Fields.ofWord w).arg1.toNat < 16 := Word.toNat_nibble_lt _
  have arg2_lt : (Fields.ofWord w).arg2.toNat < 16 := Word.toNat_nibble_lt _
  cases i with
  | halt | ret | nop =>
    rw [toWord, ← opcode]
    exact Fields.toUInt16_opcode_ofWord w
  | setImmediate target value =>
    obtain ⟨-, htarget, rfl⟩ := h
    rw [toWord, ← opcode, Register.toByte_eq htarget op_lt, Fields.ofNibblesByte_ofWord_value]
    exact whole.symm
  | setRegister target source =>
    obtain ⟨-, htarget, hsource⟩ := h
    rw [toWord, ← opcode, Register.toByte_eq htarget op_lt, Register.toByte_eq hsource arg1_lt,
      Word.ofNibblesByte_of_lt _ _ arg1_lt]
    exact Fields.ofNibbles_ofWord_zero w
  | locate address | jump address | jumpIf address | call address =>
    obtain ⟨-, rfl⟩ := h
    rw [toWord, ← opcode, Fields.ofNibbleAddress_ofWord]
    exact whole.symm
  | load r | store r | read r | write r =>
    obtain ⟨-, hop, hr⟩ := h
    rw [toWord, ← opcode, Register.toByte_eq hr arg1_lt]
    have packed := Fields.ofNibbles_ofWord_zero w
    rwa [hop] at packed
  | arithmetic op left right | compare op left right =>
    obtain ⟨-, hop, hleft, hright⟩ := h
    rw [toWord, ← opcode, ← hop, Register.toByte_eq hleft arg1_lt, Register.toByte_eq hright arg2_lt,
      Fields.ofNibbles_ofWord]
    exact whole.symm

/-! ### Words that are read as one instruction -/

theorem IsReadFrom.of_and_mask {w : UInt16} {i : Instruction}
    (h : i.IsReadFrom (Fields.ofWord (w &&& i.mask))) : i.IsReadFrom (Fields.ofWord w) := by
  have whole : w &&& 0xFFFF = w := UInt16.and_neg_one
  cases i with
  | halt | ret | nop =>
    have read := h.opcode_eq
    rwa [mask, Fields.opcode_ofWord_and_000F] at read
  | setRegister | load | store | read | write =>
    rw [mask] at h
    simpa only [IsReadFrom, Fields.opcode_ofWord_and_0FFF, Fields.op_ofWord_and_0FFF,
      Fields.arg1_ofWord_and_0FFF] using h
  | _ => rwa [mask, whole] at h

theorem ofWord?_toWord_mod (i : Instruction) : ofWord? i.toWord = some (i.mapAddress (· % 4096)) := by
  rw [ofWord?_toWord, funext Word.and_eq_mod]

theorem toWord_mapAddress_mod (i : Instruction) : (i.mapAddress (· % 4096)).toWord = i.toWord := by
  have reduced (a : UInt16) (opcode : UInt8) :
      Word.ofNibbleAddress opcode (a % 4096) = Word.ofNibbleAddress opcode a := by
    rw [← Word.and_eq_mod, Word.ofNibbleAddress, UInt16.and_assoc, UInt16.and_self, Word.ofNibbleAddress]
  cases i with
  | locate a | jump a | jumpIf a | call a => exact reduced a _
  | _ => rfl

/-- Two instructions have one word if they differ at most in the high nibble of an address. -/
theorem toWord_eq_iff {i j : Instruction} :
    i.toWord = j.toWord ↔ i.mapAddress (· % 4096) = j.mapAddress (· % 4096) := by
  constructor
  · intro h
    have read := ofWord?_toWord_mod i
    rw [h, ofWord?_toWord_mod] at read
    exact (Option.some.inj read).symm
  · intro h
    rw [← toWord_mapAddress_mod i, h, toWord_mapAddress_mod]

/-- A word is read as an instruction if the bits that matter are those of the instruction's own word,
and the instruction has no other address than a word can have. -/
theorem ofWord?_eq_some_iff {w : UInt16} {i : Instruction} :
    ofWord? w = some i ↔ i.mapAddress (· % 4096) = i ∧ i.toWord = w &&& i.mask := by
  constructor
  · intro h
    have packed := toWord_of_isReadFrom (isReadFrom_of_ofFields? h)
    have reduced (a : UInt16) (ha : i.address? = some a) : a % 4096 = a := by
      rw [← Word.and_eq_mod]
      exact and_eq_self_of_le (Nat.le_of_lt_succ (address_lt_of_ofWord? h ha))
    exact ⟨mapAddress_eq_self reduced, packed⟩
  · rintro ⟨reduced, packed⟩
    have read : ofWord? i.toWord = some i := by rw [ofWord?_toWord_mod, reduced]
    rw [packed] at read
    exact ofFields?_of_isReadFrom (isReadFrom_of_ofFields? read).of_and_mask

/-- **The words of the instructions.** Packed and read back, an instruction is the same with its address
modulo 4096, so two instructions have one word exactly if they are the same up to that. Readings have an
instruction exactly if the opcode and the number of the operation mean something, and it is the one that
is read from them, with registers modulo 16. The words that are read as an instruction are those with the
bits that matter to it; the instruction is packed into the one with zeros in all others. -/
theorem word_codec :
    (∀ i : Instruction, ofWord? i.toWord = some (i.mapAddress (· % 4096))) ∧
      (∀ i j : Instruction,
        i.toWord = j.toWord ↔ i.mapAddress (· % 4096) = j.mapAddress (· % 4096)) ∧
      (∀ f : Fields, ((ofFields? f).isSome = true ↔ f.InRange) ∧
        ∀ i, ofFields? f = some i ↔ i.IsReadFrom f) ∧
      ∀ (w : UInt16) (i : Instruction),
        ofWord? w = some i ↔ i.mapAddress (· % 4096) = i ∧ i.toWord = w &&& i.mask :=
  ⟨ofWord?_toWord_mod, fun _ _ => toWord_eq_iff,
    fun _ => ⟨isSome_ofFields?_iff, fun _ => ofFields?_eq_some_iff⟩, fun _ _ => ofWord?_eq_some_iff⟩

end Instruction

end ByteMachine
