/-!
# Relations

The six comparisons of bytes, which are read as numbers from 0 to 255.

Main statements: `ofCode?_eq_some_iff`, `ofMnemonic?_mnemonic`.
-/

namespace ByteMachine

/-- A comparison of two bytes. -/
inductive Relation where
  | equal
  | notEqual
  | less
  | lessOrEqual
  | greater
  | greaterOrEqual
  deriving DecidableEq, Repr

namespace Relation

/-- The relations in the order of their codes. -/
def all : List Relation := [.equal, .notEqual, .less, .lessOrEqual, .greater, .greaterOrEqual]

/-- The number of the relation in an instruction word. -/
def code : Relation → UInt8
  | .equal => 0
  | .notEqual => 1
  | .less => 2
  | .lessOrEqual => 3
  | .greater => 4
  | .greaterOrEqual => 5

/-- The relation of a number. -/
def ofCode? (n : UInt8) : Option Relation := all.find? (·.code == n)

/-- The word for the relation in source text. -/
def mnemonic : Relation → String
  | .equal => "LIK"
  | .notEqual => "ULIK"
  | .less => "ME"
  | .lessOrEqual => "MEL"
  | .greater => "SE"
  | .greaterOrEqual => "SEL"

/-- The relation of a word. -/
def ofMnemonic? (s : String) : Option Relation := all.find? (·.mnemonic == s)

/-- The relation holds between the two bytes. -/
def holds : Relation → UInt8 → UInt8 → Bool
  | .equal, a, b => a == b
  | .notEqual, a, b => a != b
  | .less, a, b => a < b
  | .lessOrEqual, a, b => a ≤ b
  | .greater, a, b => b < a
  | .greaterOrEqual, a, b => b ≤ a

theorem mem_all (r : Relation) : r ∈ all := by cases r <;> decide

theorem ofCode?_code (r : Relation) : ofCode? r.code = some r := by cases r <;> rfl

theorem ofCode?_eq_some_iff {n : UInt8} {r : Relation} : ofCode? n = some r ↔ n = r.code := by
  constructor
  · intro h
    have found := List.find?_some h
    exact (beq_iff_eq.mp found).symm
  · rintro rfl
    exact ofCode?_code r

theorem ofMnemonic?_mnemonic (r : Relation) : ofMnemonic? r.mnemonic = some r := by
  cases r <;> decide +kernel

end Relation

end ByteMachine
