import ByteMachine.Image
import ByteMachine.Register
import ByteMachine.Source.Error
import ByteMachine.Source.Labels

/-!
# Operands

An operand is a register, a byte, an address, or for the source of a set instruction a byte or a
register. Numbers are written in base ten, or in base sixteen after `0x`, with any number of digits. A
text that has the form of a number is read as one even if a label has the same name.

Main statements: `number_eq_ok_none_iff`, `number_eq_ok_some_iff`, `number_eq_error_iff`.
-/

namespace ByteMachine.Source

/-- The value of a text in the form of a number. -/
def numeral? (cs : List Char) : Option Nat :=
  match cs with
  | '0' :: 'x' :: ds => Text.read? 16 ds
  | ds => Text.read? 10 ds

/-- The value of a text in the form of a number, which must not exceed `max`; nothing if the text has
another form. -/
def number (token : String) (max : Nat) : Except SourceError (Option Nat) :=
  match numeral? token.toList with
  | none => .ok none
  | some n => if n ≤ max then .ok (some n) else .error (.outOfRange token max)

theorem number_eq_ok_none_iff {token : String} {max : Nat} :
    number token max = .ok none ↔ numeral? token.toList = none := by
  unfold number
  split
  · simp [*]
  · split <;> simp [*]

theorem number_eq_ok_some_iff {token : String} {max n : Nat} :
    number token max = .ok (some n) ↔ numeral? token.toList = some n ∧ n ≤ max := by
  unfold number
  split
  · simp [*]
  · rename_i m h
    by_cases hm : m ≤ max
    · simp only [hm, if_true, h, Except.ok.injEq, Option.some.injEq]
      exact ⟨fun e => ⟨e, e ▸ hm⟩, And.left⟩
    · simp only [hm, if_false, h, Option.some.injEq, reduceCtorEq, false_iff]
      rintro ⟨rfl, h'⟩
      exact hm h'

theorem number_eq_error_iff {token : String} {max : Nat} {e : SourceError} :
    number token max = .error e ↔
      (∃ n, numeral? token.toList = some n ∧ max < n) ∧ e = .outOfRange token max := by
  unfold number
  split
  · simp [*]
  · rename_i m h
    by_cases hm : m ≤ max
    · simp [hm, h, Nat.not_lt.mpr hm]
    · simp [hm, h, Nat.not_le.mp hm, eq_comm]

/-- The register of an operand. -/
def register (token : String) : Except SourceError Register :=
  match Register.ofName? token with
  | some r => .ok r
  | none => .error (.invalidRegister token)

/-- The byte of an operand. -/
def byte (token : String) : Except SourceError UInt8 := do
  match ← number token 0xFF with
  | some n => .ok (UInt8.ofNat n)
  | none => .error (.unexpectedToken token)

/-- The address of an operand: a number or a label. -/
def address (token : String) (labels : Labels) : Except SourceError UInt16 := do
  match ← number token addressMax.toNat with
  | some n => .ok (UInt16.ofNat n)
  | none =>
    match labels.address? token with
    | none => .error (.unexpectedToken token)
    | some n =>
      if n ≤ addressMax.toNat then .ok (UInt16.ofNat n)
      else .error (.outOfRange token addressMax.toNat)

end ByteMachine.Source
