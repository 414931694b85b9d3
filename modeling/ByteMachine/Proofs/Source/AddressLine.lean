import ByteMachine.Proofs.Source.Arguments
import ByteMachine.Proofs.Source.Encoding

/-!
# Lines that take an address

The lines of four instructions have one operand, an address. Such a line is an instruction line
(`kind_of_addressWord`), and it stands for the bytes of the one instruction that has its name and the
address of its operand (`encode_eq_ok_iff_address`).
-/

namespace ByteMachine.Source

open Text

/-- The words of the instructions that take an address. -/
def addressWords : List String := ["FINN", "HOPP", "BHOPP", "TUR"]

theorem mem_addressWords_iff {m : Mnemonic} : m.name ∈ addressWords ↔ m.signature = [.address] := by
  cases m with
  | arithmetic op => cases op <;> decide
  | compare relation => cases relation <;> decide
  | _ => decide

theorem isOperation_of_addressWord {op : String} (h : op ∈ addressWords) : IsOperation op := by
  have all : ∀ op ∈ addressWords, ∃ m ∈ Mnemonic.all, m.name = op := by decide
  obtain ⟨m, -, rfl⟩ := all op h
  exact isOperation_name m

theorem kind_of_addressWord {raw : List Char} (h : (Statement.ofLine raw).op ∈ addressWords) :
    LineKind.ofLine raw = .instruction :=
  kind_of_isOperation (isOperation_of_addressWord h)

/-! ### The bytes of the line -/

theorem areRead_address_iff {labels : Labels} {args : List String} {i : Instruction}
    (hm : i.mnemonic.signature = [.address]) :
    AreRead labels i.mnemonic.signature args i.operands ↔
      ∃ operand a, args = [operand] ∧ address operand labels = .ok a ∧ i.address? = some a := by
  obtain ⟨a, ha, operands⟩ : ∃ a, i.address? = some a ∧ i.operands = [.number a.toNat] := by
    cases i with
    | locate a | jump a | jumpIf a | call a => exact ⟨a, rfl, rfl⟩
    | _ => cases hm
  rw [hm, operands, areRead_cons_iff]
  constructor
  · rintro ⟨operand, rest, rfl, read, none⟩
    obtain rfl := areRead_nil_iff.mp none
    obtain ⟨b, hb, same⟩ := isRead_address_iff.mp read
    obtain rfl := UInt16.toNat_inj.mp same
    exact ⟨operand, a, rfl, hb, ha⟩
  · rintro ⟨operand, b, rfl, hb, hi⟩
    obtain rfl := Option.some.inj (ha.symm.trans hi)
    exact ⟨operand, [], rfl, .address hb, .nil⟩

/-- **The bytes of a line that takes an address.** -/
theorem encode_eq_ok_iff_address {labels : Labels} {t : Statement} {bytes : List UInt8}
    (h : t.op ∈ addressWords) :
    encode labels t = .ok bytes ↔
      ∃ operand a, ∃ i : Instruction, t.args = [operand] ∧ address operand labels = .ok a ∧
        i.mnemonic.name = t.op ∧ i.address? = some a ∧ bytes = i.toBytes := by
  have form {i : Instruction} (hname : i.mnemonic.name = t.op) : i.mnemonic.signature = [.address] :=
    mem_addressWords_iff.mp (hname ▸ h)
  rw [encode_eq_ok_iff (isOperation_of_addressWord h).ne_directive]
  constructor
  · rintro ⟨i, hname, read, rfl⟩
    obtain ⟨operand, a, hargs, ha, hi⟩ := (areRead_address_iff (form hname)).mp read
    exact ⟨operand, a, i, hargs, ha, hname, hi, rfl⟩
  · rintro ⟨operand, a, i, hargs, ha, hname, hi, rfl⟩
    exact ⟨i, hname, (areRead_address_iff (form hname)).mpr ⟨operand, a, hargs, ha, hi⟩, rfl⟩

end ByteMachine.Source
