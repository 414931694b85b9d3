import ByteMachine.Instruction.Operands
import ByteMachine.Proofs.Source.Operand
import ByteMachine.Proofs.Traversal
import ByteMachine.Source.Encode

/-!
# The arguments of an instruction

A mnemonic says of which form each argument is, and the form says how its text is read (`IsRead`). The
encoder has an instruction for a mnemonic and its arguments exactly if they are read, one by one and all
of them, as the operands of the instruction (`instruction_eq_ok_iff`, `encode_eq_ok_iff`).
-/

namespace ByteMachine.Source

/-- The text is read as the operand. The source of a set instruction is a register only if it has not
the form of a number. -/
inductive IsRead (labels : Labels) : OperandForm → String → Operand → Prop
  | register {token : String} {r : Register} (h : register token = .ok r) :
    IsRead labels .register token (.register r)
  | immediate {token : String} {n : Nat} (h : number token 0xFF = .ok (some n)) :
    IsRead labels .source token (.number n)
  | copy {token : String} {r : Register} (hn : number token 0xFF = .ok none)
    (h : register token = .ok r) : IsRead labels .source token (.register r)
  | address {token : String} {a : UInt16} (h : address token labels = .ok a) :
    IsRead labels .address token (.number a.toNat)

/-- The texts are read as the operands, one by one. -/
inductive AreRead (labels : Labels) : List OperandForm → List String → List Operand → Prop
  | nil : AreRead labels [] [] []
  | cons {form : OperandForm} {forms : List OperandForm} {token : String} {tokens : List String}
    {o : Operand} {os : List Operand} (h : IsRead labels form token o)
    (rest : AreRead labels forms tokens os) : AreRead labels (form :: forms) (token :: tokens) (o :: os)

section
variable {labels : Labels} {token : String} {o : Operand}

theorem isRead_immediate_iff {n : Nat} :
    IsRead labels .source token (.number n) ↔ number token 0xFF = .ok (some n) := by
  constructor
  · intro h
    cases h with
    | immediate h => exact h
  · exact .immediate

theorem isRead_address_iff {n : Nat} :
    IsRead labels .address token (.number n) ↔ ∃ a, address token labels = .ok a ∧ n = a.toNat := by
  constructor
  · intro h
    cases h with
    | address ha => exact ⟨_, ha, rfl⟩
  · rintro ⟨a, ha, rfl⟩
    exact .address ha

theorem areRead_nil_iff {tokens : List String} : AreRead labels [] tokens [] ↔ tokens = [] := by
  constructor
  · intro h
    cases h
    rfl
  · rintro rfl
    exact .nil

theorem areRead_cons_iff {form : OperandForm} {forms : List OperandForm} {tokens : List String}
    {os : List Operand} : AreRead labels (form :: forms) tokens (o :: os) ↔
      ∃ token rest, tokens = token :: rest ∧ IsRead labels form token o ∧
        AreRead labels forms rest os := by
  constructor
  · intro h
    cases h with
    | cons h rest => exact ⟨_, _, rfl, h, rest⟩
  · rintro ⟨token, rest, rfl, h, hrest⟩
    exact .cons h hrest

end

/-! ### Instructions -/

section
variable {labels : Labels} {m : Mnemonic} {args : List String} {i : Instruction}

theorem instruction_of_length_ne (h : args.length ≠ m.arity) :
    instruction labels m args = .error (.argumentCount m.name m.arity args) := by
  unfold instruction
  split
  all_goals first | rfl | exact absurd rfl h

theorem length_of_instruction (h : instruction labels m args = .ok i) : args.length = m.arity := by
  by_contra hne
  rw [instruction_of_length_ne hne] at h
  cases h

theorem areRead_of_instruction (h : instruction labels m args = .ok i) :
    i.mnemonic = m ∧ AreRead labels m.signature args i.operands := by
  have count := length_of_instruction h
  -- the cases are those of one signature
  cases m with
  | halt | ret | nop =>
    obtain rfl := List.eq_nil_of_length_eq_zero count
    cases h
    exact ⟨rfl, .nil⟩
  | load | store | read | write =>
    obtain ⟨token, rfl⟩ := List.length_eq_one_iff.mp count
    obtain ⟨r, hr, he⟩ := bind_eq_ok_iff.mp h
    cases he
    exact ⟨rfl, .cons (.register hr) .nil⟩
  | locate | jump | jumpIf | call =>
    obtain ⟨token, rfl⟩ := List.length_eq_one_iff.mp count
    obtain ⟨a, ha, he⟩ := bind_eq_ok_iff.mp h
    cases he
    exact ⟨rfl, .cons (.address ha) .nil⟩
  | arithmetic op | compare relation =>
    obtain ⟨left, right, rfl⟩ := List.length_eq_two.mp count
    obtain ⟨l, hl, h⟩ := bind_eq_ok_iff.mp h
    obtain ⟨r, hr, he⟩ := bind_eq_ok_iff.mp h
    cases he
    exact ⟨rfl, .cons (.register hl) (.cons (.register hr) .nil)⟩
  | set =>
    obtain ⟨target, source, rfl⟩ := List.length_eq_two.mp count
    obtain ⟨t, ht, h⟩ := bind_eq_ok_iff.mp h
    obtain ⟨value, hv, h⟩ := bind_eq_ok_iff.mp h
    cases value with
    | some n =>
      cases h
      have byte : (UInt8.ofNat n).toNat = n :=
        UInt8.toNat_ofNat_of_lt' (Nat.lt_succ_of_le (number_eq_ok_some_iff.mp hv).2)
      refine ⟨rfl, .cons (.register ht) (.cons ?_ .nil)⟩
      rw [byte]
      exact .immediate hv
    | none =>
      obtain ⟨s, hs, he⟩ := bind_eq_ok_iff.mp h
      cases he
      exact ⟨rfl, .cons (.register ht) (.cons (.copy hv hs) .nil)⟩

theorem instruction_of_areRead (h : AreRead labels i.mnemonic.signature args i.operands) :
    instruction labels i.mnemonic args = .ok i := by
  cases i with
  | halt | ret | nop =>
    obtain rfl := areRead_nil_iff.mp h
    rfl
  | load r | store r | read r | write r =>
    obtain ⟨token, rest, rfl, ⟨hr⟩, h⟩ := areRead_cons_iff.mp h
    obtain rfl := areRead_nil_iff.mp h
    exact bind_eq_ok_iff.mpr ⟨r, hr, rfl⟩
  | locate a | jump a | jumpIf a | call a =>
    obtain ⟨token, rest, rfl, ha, h⟩ := areRead_cons_iff.mp h
    obtain rfl := areRead_nil_iff.mp h
    obtain ⟨b, hb, same⟩ := isRead_address_iff.mp ha
    obtain rfl := UInt16.toNat_inj.mp same
    exact bind_eq_ok_iff.mpr ⟨a, hb, rfl⟩
  | arithmetic op left right | compare relation left right =>
    obtain ⟨first, rest, rfl, ⟨hl⟩, h⟩ := areRead_cons_iff.mp h
    obtain ⟨second, rest, rfl, ⟨hr⟩, h⟩ := areRead_cons_iff.mp h
    obtain rfl := areRead_nil_iff.mp h
    exact bind_eq_ok_iff.mpr ⟨left, hl, bind_eq_ok_iff.mpr ⟨right, hr, rfl⟩⟩
  | setImmediate target value =>
    obtain ⟨first, rest, rfl, ⟨ht⟩, h⟩ := areRead_cons_iff.mp h
    obtain ⟨second, rest, rfl, hv, h⟩ := areRead_cons_iff.mp h
    obtain rfl := areRead_nil_iff.mp h
    have immediate := isRead_immediate_iff.mp hv
    refine bind_eq_ok_iff.mpr ⟨target, ht, bind_eq_ok_iff.mpr ⟨some value.toNat, immediate, ?_⟩⟩
    exact congrArg (fun b => Except.ok (Instruction.setImmediate target b)) UInt8.ofNat_toNat
  | setRegister target source =>
    obtain ⟨first, rest, rfl, ⟨ht⟩, h⟩ := areRead_cons_iff.mp h
    obtain ⟨second, rest, rfl, hs, h⟩ := areRead_cons_iff.mp h
    obtain rfl := areRead_nil_iff.mp h
    cases hs with
    | copy hn hs =>
      refine bind_eq_ok_iff.mpr ⟨target, ht, bind_eq_ok_iff.mpr ⟨none, hn, ?_⟩⟩
      exact bind_eq_ok_iff.mpr ⟨source, hs, rfl⟩

/-- **The instruction of a mnemonic and its arguments** is the one whose operands the arguments are read
as. -/
theorem instruction_eq_ok_iff : instruction labels m args = .ok i ↔
    i.mnemonic = m ∧ AreRead labels m.signature args i.operands := by
  constructor
  · exact areRead_of_instruction
  · rintro ⟨rfl, h⟩
    exact instruction_of_areRead h

end

/-- The bytes of a line that is no data are those of an instruction. -/
theorem encode_eq_ok_iff {labels : Labels} {t : Statement} {bytes : List UInt8}
    (hd : t.op.toList ≠ dataDirective) : encode labels t = .ok bytes ↔
      ∃ i : Instruction, i.mnemonic.name = t.op ∧
        AreRead labels i.mnemonic.signature t.args i.operands ∧ bytes = i.toBytes := by
  constructor
  · intro h
    cases hm : Mnemonic.ofName? t.op with
    | none =>
      rw [encode_of_unknown hd hm] at h
      cases h
    | some m =>
      rw [encode_of_mnemonic hd hm] at h
      obtain ⟨i, hi, rfl⟩ := map_eq_ok_iff.mp h
      obtain ⟨rfl, read⟩ := instruction_eq_ok_iff.mp hi
      exact ⟨i, Mnemonic.ofName?_eq_some_iff.mp hm, read, rfl⟩
  · rintro ⟨i, hname, read, rfl⟩
    rw [encode_of_mnemonic hd (Mnemonic.ofName?_eq_some_iff.mpr hname)]
    exact map_eq_ok_iff.mpr ⟨i, instruction_of_areRead read, rfl⟩

end ByteMachine.Source
