import Mathlib.Data.List.Forall2
import ByteMachine.Instruction.Codec
import ByteMachine.Instruction.Operands
import ByteMachine.Source.Operand
import ByteMachine.Source.Statement

/-!
# Items of programs

What a program without labels is made of, and the statements that write it. An instruction is written as
its mnemonic and its operands, and other bytes as data. A number may be written in base ten or sixteen
and with zeros before it: `Operand.IsWritten` says which texts write an operand, and `Item.IsWritten`
which statements write an item.

Main statements: `Operand.isWritten_decimal`, `Operand.isWritten_hex` (both ways to write a number),
`Operand.exists_isWritten`.
-/

namespace ByteMachine

namespace Operand

/-- The text writes the operand. -/
def IsWritten (text : String) : Operand → Prop
  | .register r => text = r.name
  | .number n => Source.numeral? text.toList = some n

theorem isWritten_decimal (n : Nat) : IsWritten (Text.decimal n) (.number n) := by
  have read := Text.read?_numeral (by decide : 2 ≤ 10) (by decide) n
  show Source.numeral? (String.ofList (Text.numeral 10 n)).toList = some n
  rw [String.toList_ofList]
  unfold Source.numeral?
  split
  · rename_i ds h
    simp [h, Text.read?, Text.digit?, Text.digitValue?] at read
  · exact read

theorem isWritten_hex (n : Nat) : IsWritten ("0x" ++ Text.hex n) (.number n) := by
  show Source.numeral? ("0x" ++ String.ofList (Text.numeral 16 n)).toList = some n
  simp only [String.toList_append, String.toList_ofList]
  exact Text.read?_numeral (by decide : 2 ≤ 16) (by decide) n

/-- Every operand can be written. -/
theorem exists_isWritten : ∀ o : Operand, ∃ text, IsWritten text o
  | .register r => ⟨r.name, rfl⟩
  | .number n => ⟨Text.decimal n, isWritten_decimal n⟩

/-- The texts write the operands, one by one. -/
def AreWritten : List String → List Operand → Prop
  | [], [] => True
  | text :: texts, o :: os => IsWritten text o ∧ AreWritten texts os
  | _, _ => False

theorem areWritten_iff_forall₂ {texts : List String} {os : List Operand} :
    AreWritten texts os ↔ List.Forall₂ IsWritten texts os := by
  induction texts generalizing os with
  | nil => cases os <;> simp [AreWritten]
  | cons text texts ih => cases os <;> simp [AreWritten, ih]

end Operand

namespace Source

/-- A part of a program. -/
inductive Item where
  | instruction (i : Instruction)
  | data (bytes : List UInt8)
  deriving DecidableEq, Repr

namespace Item

/-- The bytes of the item. -/
def bytes : Item → List UInt8
  | .instruction i => i.toBytes
  | .data bs => bs

/-- The operation of a statement that writes the item. -/
def op : Item → String
  | .instruction i => i.mnemonic.name
  | .data _ => String.ofList dataDirective

/-- The operands of the item: for data, its bytes. -/
def operands : Item → List Operand
  | .instruction i => i.operands
  | .data bs => bs.map fun b => .number b.toNat

/-- The statement writes the item. -/
def IsWritten (t : Statement) (item : Item) : Prop :=
  t.op = item.op ∧ Operand.AreWritten t.args item.operands

end Item

end Source

end ByteMachine
