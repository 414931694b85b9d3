import ByteMachine.Operation
import ByteMachine.Relation

/-!
# Mnemonics

The words that name instructions in source text, and the operands that each one takes. The word for
setting a register serves two instructions: the form of its second operand tells them apart.

Main statements: `ofName?_name`, `ofName?_eq_some_iff`.
-/

namespace ByteMachine

/-- The form of an operand. -/
inductive OperandForm where
  /-- A register. -/
  | register
  /-- A number below 256, or a register. -/
  | source
  /-- A number below 4096, or a label. -/
  | address
  deriving DecidableEq, Repr

/-- The name of an instruction in source text. -/
inductive Mnemonic where
  | halt
  | set
  | locate
  | load
  | store
  | arithmetic (op : Operation)
  | read
  | write
  | compare (relation : Relation)
  | jump
  | jumpIf
  | call
  | ret
  | nop
  deriving DecidableEq, Repr

namespace Mnemonic

/-- The mnemonics, of which there are twenty-five. -/
def all : List Mnemonic :=
  [.halt, .set, .locate, .load, .store] ++ Operation.all.map .arithmetic ++ [.read, .write] ++
    Relation.all.map .compare ++ [.jump, .jumpIf, .call, .ret, .nop]

/-- The word in source text. -/
def name : Mnemonic → String
  | .halt => "STOPP"
  | .set => "SETT"
  | .locate => "FINN"
  | .load => "LAST"
  | .store => "LAGR"
  | .arithmetic op => op.mnemonic
  | .read => "LES"
  | .write => "SKRIV"
  | .compare relation => relation.mnemonic
  | .jump => "HOPP"
  | .jumpIf => "BHOPP"
  | .call => "TUR"
  | .ret => "RETUR"
  | .nop => "NOPE"

/-- The mnemonic of a word. -/
def ofName? (s : String) : Option Mnemonic := all.find? (·.name == s)

/-- The forms of the operands, in order. -/
def signature : Mnemonic → List OperandForm
  | .halt | .ret | .nop => []
  | .set => [.register, .source]
  | .load | .store | .read | .write => [.register]
  | .arithmetic _ | .compare _ => [.register, .register]
  | .locate | .jump | .jumpIf | .call => [.address]

/-- The number of operands. -/
def arity (m : Mnemonic) : Nat := m.signature.length

theorem mem_all (m : Mnemonic) : m ∈ all := by
  cases m with
  | arithmetic op => cases op <;> decide
  | compare relation => cases relation <;> decide
  | _ => decide

theorem ofName?_name (m : Mnemonic) : ofName? m.name = some m := by
  cases m with
  | arithmetic op => cases op <;> decide +kernel
  | compare relation => cases relation <;> decide +kernel
  | _ => decide +kernel

theorem ofName?_eq_some_iff {s : String} {m : Mnemonic} : ofName? s = some m ↔ m.name = s := by
  constructor
  · intro h
    simpa using List.find?_some h
  · rintro rfl
    exact ofName?_name m

end Mnemonic

end ByteMachine
