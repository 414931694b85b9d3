import ByteMachine.Image
import ByteMachine.Instruction.Codec
import ByteMachine.Instruction.Operands

/-!
# Which instruction the readings of a word are

A decoder goes from the opcode to the operands. `Instruction.IsReadFrom` goes the other way: it says of
an instruction which readings it is read from, with a register in the low four bits of its reading.

* `Instruction.ofFields?_eq_some_iff`: the decoder finds the instruction that is read from the readings.
* `Instruction.isSome_ofFields?_iff`: it finds one if the opcode and the number of the operation mean
  something, and nothing else matters.
* `Instruction.address_lt_of_ofWord?`: an address in a word is inside the memory.
-/

namespace ByteMachine

/-! ### Bits of words as numbers -/

theorem Word.toNat_shiftRight_four (v : UInt16) : (v >>> 4).toNat = v.toNat / 16 := by
  rw [UInt16.toNat_shiftRight, Nat.shiftRight_eq_div_pow]
  rfl

theorem Word.toUInt8_and (v : UInt16) : (v &&& 0xF).toUInt8 = UInt8.ofNat (v.toNat % 16) := by
  apply UInt8.toNat_inj.mp
  rw [UInt16.toNat_toUInt8, UInt16.toNat_and, UInt8.toNat_ofNat']
  exact congrArg (· % 2 ^ 8) (Nat.and_two_pow_sub_one_eq_mod v.toNat 4)

/-! ### Numbers that mean something -/

/-- Of a table numbered from zero on, a number has an entry if there are more entries than it. -/
theorem isSome_find?_code_iff {α : Type} {all : List α} {code : α → UInt8} {m : Nat} (hm : m ≤ UInt8.size)
    (numbered : all.map code = (List.range m).map UInt8.ofNat) {n : UInt8} :
    (all.find? fun a => code a == n).isSome = true ↔ n.toNat < m := by
  have entry : (∃ a ∈ all, (code a == n) = true) ↔ n ∈ (List.range m).map UInt8.ofNat := by
    rw [← numbered, List.mem_map]
    simp only [beq_iff_eq]
  rw [List.find?_isSome, entry, List.mem_map]
  constructor
  · rintro ⟨k, hk, rfl⟩
    rw [List.mem_range] at hk
    rwa [UInt8.toNat_ofNat_of_lt' (Nat.lt_of_lt_of_le hk hm)]
  · intro h
    exact ⟨n.toNat, List.mem_range.mpr h, UInt8.ofNat_toNat⟩

theorem Opcode.isSome_ofCode?_iff {n : UInt8} : (ofCode? n).isSome = true ↔ n.toNat < 13 := by
  have numbered : all.map code = (List.range 13).map UInt8.ofNat := rfl
  exact isSome_find?_code_iff (by decide) numbered

theorem Operation.isSome_ofCode?_iff {n : UInt8} : (ofCode? n).isSome = true ↔ n.toNat < 7 := by
  have numbered : all.map code = (List.range 7).map UInt8.ofNat := rfl
  exact isSome_find?_code_iff (by decide) numbered

theorem Relation.isSome_ofCode?_iff {n : UInt8} : (ofCode? n).isSome = true ↔ n.toNat < 6 := by
  have numbered : all.map code = (List.range 6).map UInt8.ofNat := rfl
  exact isSome_find?_code_iff (by decide) numbered

/-- The number of operations of an opcode. Where the number of the operation does not matter, that is all
bytes. -/
def Fields.operationCount (opcode : UInt8) : Nat :=
  if opcode = 4 ∨ opcode = 6 then 2
  else if opcode = 5 then 7
  else if opcode = 7 then 6
  else 256

/-- The opcode and the number of the operation mean something. -/
structure Fields.InRange (f : Fields) : Prop where
  opcode_le : f.opcode.toNat ≤ 12
  op_lt : f.op.toNat < operationCount f.opcode

namespace Instruction

/-! ### The instruction of readings -/

/-- **The instruction is read from the readings.** A register is read from the low four bits. -/
def IsReadFrom (f : Fields) : Instruction → Prop
  | .halt => f.opcode = 0
  | .setImmediate target value => f.opcode = 1 ∧ target.val = f.op.toNat % 16 ∧ value = f.value
  | .setRegister target source =>
    f.opcode = 2 ∧ target.val = f.op.toNat % 16 ∧ source.val = f.arg1.toNat % 16
  | .locate address => f.opcode = 3 ∧ address = f.address
  | .load target => f.opcode = 4 ∧ f.op = 0 ∧ target.val = f.arg1.toNat % 16
  | .store source => f.opcode = 4 ∧ f.op = 1 ∧ source.val = f.arg1.toNat % 16
  | .arithmetic op left right =>
    f.opcode = 5 ∧ f.op = op.code ∧ left.val = f.arg1.toNat % 16 ∧ right.val = f.arg2.toNat % 16
  | .read target => f.opcode = 6 ∧ f.op = 0 ∧ target.val = f.arg1.toNat % 16
  | .write source => f.opcode = 6 ∧ f.op = 1 ∧ source.val = f.arg1.toNat % 16
  | .compare relation left right =>
    f.opcode = 7 ∧ f.op = relation.code ∧ left.val = f.arg1.toNat % 16 ∧ right.val = f.arg2.toNat % 16
  | .jump address => f.opcode = 8 ∧ address = f.address
  | .jumpIf address => f.opcode = 9 ∧ address = f.address
  | .call address => f.opcode = 10 ∧ address = f.address
  | .ret => f.opcode = 11
  | .nop => f.opcode = 12

section
variable {f : Fields} {i : Instruction}

theorem IsReadFrom.opcode_eq (h : i.IsReadFrom f) : f.opcode = i.opcode.code := by
  cases i with
  | halt | ret | nop => exact h
  | _ => exact h.1

theorem isReadFrom_of_ofFields? (h : ofFields? f = some i) : i.IsReadFrom f := by
  unfold ofFields? at h
  dsimp only at h
  cases ho : Opcode.ofCode? f.opcode with
  | none => simp [ho] at h
  | some opcode =>
    rw [ho] at h
    have code := Opcode.ofCode?_eq_some_iff.mp ho
    cases opcode with
    | halt | ret | nop =>
      cases h
      exact code
    | setImmediate | setRegister =>
      cases h
      exact ⟨code, rfl, rfl⟩
    | locate | jump | jumpIf | call =>
      cases h
      exact ⟨code, rfl⟩
    | memory | transfer =>
      dsimp only at h
      split at h
      · cases h
        exact ⟨code, ‹_›, rfl⟩
      · split at h
        · cases h
          exact ⟨code, ‹_›, rfl⟩
        · cases h
    | arithmetic =>
      obtain ⟨op, hop, rfl⟩ := Option.map_eq_some_iff.mp h
      exact ⟨code, Operation.ofCode?_eq_some_iff.mp hop, rfl, rfl⟩
    | compare =>
      obtain ⟨relation, hrel, rfl⟩ := Option.map_eq_some_iff.mp h
      exact ⟨code, Relation.ofCode?_eq_some_iff.mp hrel, rfl, rfl⟩

theorem ofFields?_of_isReadFrom (h : i.IsReadFrom f) : ofFields? f = some i := by
  have opcode := Opcode.ofCode?_eq_some_iff.mpr h.opcode_eq
  unfold ofFields?
  cases i with
  | halt | ret | nop => rw [opcode]; rfl
  | setImmediate target value =>
    obtain ⟨-, htarget, rfl⟩ := h
    rw [opcode, ← Register.ofNibble_eq_iff.mpr htarget]
    rfl
  | setRegister target source =>
    obtain ⟨-, htarget, hsource⟩ := h
    rw [opcode, ← Register.ofNibble_eq_iff.mpr htarget, ← Register.ofNibble_eq_iff.mpr hsource]
    rfl
  | locate address | jump address | jumpIf address | call address =>
    obtain ⟨-, rfl⟩ := h
    rw [opcode]
    rfl
  | load r | store r | read r | write r =>
    obtain ⟨-, hop, hr⟩ := h
    rw [opcode, hop, ← Register.ofNibble_eq_iff.mpr hr]
    rfl
  | arithmetic op left right =>
    obtain ⟨-, hop, hleft, hright⟩ := h
    rw [opcode, Operation.ofCode?_eq_some_iff.mpr hop, ← Register.ofNibble_eq_iff.mpr hleft,
      ← Register.ofNibble_eq_iff.mpr hright]
    rfl
  | compare relation left right =>
    obtain ⟨-, hop, hleft, hright⟩ := h
    rw [opcode, Relation.ofCode?_eq_some_iff.mpr hop, ← Register.ofNibble_eq_iff.mpr hleft,
      ← Register.ofNibble_eq_iff.mpr hright]
    rfl

/-- **The decoder finds the instruction that is read from the readings.** -/
theorem ofFields?_eq_some_iff : ofFields? f = some i ↔ i.IsReadFrom f :=
  ⟨isReadFrom_of_ofFields?, ofFields?_of_isReadFrom⟩

theorem isSome_inward_outward_iff {op : UInt8} {first second : Instruction} :
    (if op = inward then some first else if op = outward then some second else none).isSome = true ↔
      op.toNat < 2 := by
  have numbers : op = inward ∨ op = outward ↔ op.toNat < 2 := by
    rw [← UInt8.toNat_inj, ← UInt8.toNat_inj]
    have : inward.toNat = 0 := rfl
    have : outward.toNat = 1 := rfl
    omega
  rw [← numbers]
  split
  · simp [*]
  · split
    · simp [*]
    · simp [*]

/-- **The decoder finds an instruction** if the numbers mean something. -/
theorem isSome_ofFields?_iff : (ofFields? f).isSome = true ↔ f.InRange := by
  have meant := Opcode.isSome_ofCode?_iff (n := f.opcode)
  unfold ofFields?
  dsimp only
  cases ho : Opcode.ofCode? f.opcode with
  | none =>
    have unknown : ¬f.opcode.toNat < 13 := by simpa [ho] using meant
    constructor
    · intro h
      cases h
    · intro h
      exact absurd (Nat.lt_succ_of_le h.opcode_le) unknown
  | some opcode =>
    have known : f.opcode.toNat < 13 := by simpa [ho] using meant
    have code := Opcode.ofCode?_eq_some_iff.mp ho
    have range : f.InRange ↔ f.op.toNat < Fields.operationCount opcode.code :=
      ⟨fun h => code ▸ h.op_lt, fun h => ⟨Nat.le_of_lt_succ known, code.symm ▸ h⟩⟩
    rw [range]
    cases opcode with
    | memory | transfer => exact isSome_inward_outward_iff
    | arithmetic =>
      rw [Option.isSome_map]
      exact Operation.isSome_ofCode?_iff
    | compare =>
      rw [Option.isSome_map]
      exact Relation.isSome_ofCode?_iff
    | _ => exact iff_of_true rfl f.op.toNat_lt

end

/-! ### Addresses in words -/

theorem address_lt_of_ofWord? {w a : UInt16} {i : Instruction} (h : ofWord? w = some i)
    (ha : i.address? = some a) : a.toNat < memorySize := by
  have field : a = w >>> 4 := by
    have read := ofFields?_eq_some_iff.mp h
    cases i with
    | locate b | jump b | jumpIf b | call b =>
      obtain rfl := Option.some.inj ha
      exact read.2
    | _ => cases ha
  have word : w.toNat < 2 ^ 16 := w.toNat_lt
  rw [field, Word.toNat_shiftRight_four, memorySize]
  omega

end Instruction

end ByteMachine
