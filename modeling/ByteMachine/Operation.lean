/-!
# Arithmetic operations

The seven operations on bytes. Sums and differences are taken modulo 256, and a shift by eight places or
more leaves nothing.

Main statements: `ofCode?_eq_some_iff`, `ofMnemonic?_mnemonic`.
-/

namespace ByteMachine

/-- An operation on two bytes. -/
inductive Operation where
  | and
  | or
  | xor
  | shiftLeft
  | shiftRight
  | add
  | sub
  deriving DecidableEq, Repr

namespace Operation

/-- The operations in the order of their codes. -/
def all : List Operation := [.and, .or, .xor, .shiftLeft, .shiftRight, .add, .sub]

/-- The number of the operation in an instruction word. -/
def code : Operation → UInt8
  | .and => 0
  | .or => 1
  | .xor => 2
  | .shiftLeft => 3
  | .shiftRight => 4
  | .add => 5
  | .sub => 6

/-- The operation of a number. -/
def ofCode? (n : UInt8) : Option Operation := all.find? (·.code == n)

/-- The word for the operation in source text. -/
def mnemonic : Operation → String
  | .and => "OG"
  | .or => "ELLER"
  | .xor => "XELLER"
  | .shiftLeft => "VSKIFT"
  | .shiftRight => "HSKIFT"
  | .add => "PLUSS"
  | .sub => "MINUS"

/-- The operation of a word. -/
def ofMnemonic? (s : String) : Option Operation := all.find? (·.mnemonic == s)

/-- The result of the operation. -/
def apply : Operation → UInt8 → UInt8 → UInt8
  | .and, a, b => a &&& b
  | .or, a, b => a ||| b
  | .xor, a, b => a ^^^ b
  | .shiftLeft, a, b => if b < 8 then a <<< b else 0
  | .shiftRight, a, b => if b < 8 then a >>> b else 0
  | .add, a, b => a + b
  | .sub, a, b => a - b

theorem mem_all (op : Operation) : op ∈ all := by cases op <;> decide

theorem ofCode?_code (op : Operation) : ofCode? op.code = some op := by cases op <;> rfl

theorem ofCode?_eq_some_iff {n : UInt8} {op : Operation} : ofCode? n = some op ↔ n = op.code := by
  constructor
  · intro h
    have found := List.find?_some h
    exact (beq_iff_eq.mp found).symm
  · rintro rfl
    exact ofCode?_code op

theorem ofMnemonic?_mnemonic (op : Operation) : ofMnemonic? op.mnemonic = some op := by
  cases op <;> decide +kernel

end Operation

end ByteMachine
