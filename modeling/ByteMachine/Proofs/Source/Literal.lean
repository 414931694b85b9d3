import ByteMachine.Proofs.Text.Digits
import ByteMachine.Source.LineKind
import ByteMachine.Source.Operand

/-!
# Operands in the form of a number

The form of a number, said of its characters: decimal digits, or digits of base sixteen after `0x`, and
in both cases at least one. `numeral?` reads the texts of this form and no others
(`numeral?_eq_some_iff`, `numeral?_eq_none_iff`), each as its positional value. All their characters
may stand in the operands of data (`isDataChar_of_numeral?`) and in names (`isNameChar_of_numeral?`).
-/

namespace ByteMachine.Source

open Text

/-- The text has the form of a number. -/
def IsLiteral (cs : List Char) : Prop :=
  (cs ≠ [] ∧ ∀ c ∈ cs, c.isDigit = true) ∨
    ∃ ds, cs = '0' :: 'x' :: ds ∧ ds ≠ [] ∧ ∀ c ∈ ds, isHexDigit c = true

/-- The value of a text in the form of a number. -/
def literalValue : List Char → Nat
  | '0' :: 'x' :: ds => value 16 (ds.map digitValue)
  | ds => value 10 (ds.map digitValue)

theorem numeral?_eq_some_iff {cs : List Char} {n : Nat} :
    numeral? cs = some n ↔ IsLiteral cs ∧ n = literalValue cs := by
  unfold numeral? IsLiteral
  split
  · rename_i ds
    have hx : ¬ ('0' :: 'x' :: ds ≠ [] ∧ ∀ c ∈ '0' :: 'x' :: ds, c.isDigit = true) := by
      rintro ⟨-, h⟩
      exact absurd (h 'x' (by simp)) (by decide)
    rw [read?_sixteen_eq_some_iff, or_iff_right hx]
    constructor
    · rintro ⟨⟨hne, h⟩, rfl⟩
      exact ⟨⟨ds, rfl, hne, h⟩, rfl⟩
    · rintro ⟨⟨ds', he, hne, h⟩, rfl⟩
      obtain rfl : ds = ds' := by simpa using he
      exact ⟨⟨hne, h⟩, rfl⟩
  · rename_i hno
    have hhex : ¬ ∃ ds, cs = '0' :: 'x' :: ds ∧ ds ≠ [] ∧ ∀ c ∈ ds, isHexDigit c = true := by
      rintro ⟨ds, he, -⟩
      exact hno ds he
    have hvalue : literalValue cs = value 10 (cs.map digitValue) := by
      unfold literalValue
      split
      · exact absurd rfl (hno _)
      · rfl
    rw [read?_ten_eq_some_iff, or_iff_left hhex, hvalue]

theorem numeral?_eq_none_iff {cs : List Char} : numeral? cs = none ↔ ¬ IsLiteral cs := by
  rw [Option.eq_none_iff_forall_ne_some]
  constructor
  · intro h hl
    exact h _ (numeral?_eq_some_iff.mpr ⟨hl, rfl⟩)
  · intro h n hn
    exact h (numeral?_eq_some_iff.mp hn).1

/-! ### The characters of a number -/

section
variable {c : Char}

theorem isHexDigit_of_isDigit (h : c.isDigit = true) : isHexDigit c = true := by
  simp only [isHexDigit, h, Bool.true_or]

theorem isDataChar_of_isHexDigit (h : isHexDigit c = true) : isDataChar c = true := by
  unfold isHexDigit at h
  simp only [isDataChar, h, Bool.true_or]

theorem isNameChar_of_isHexDigit (h : isHexDigit c = true) : isNameChar c = true := by
  have alphanum : c.isAlphanum = true := by
    simp only [isHexDigit, Bool.or_eq_true, Bool.and_eq_true, decide_eq_true_eq] at h
    rw [isAlphanum_iff]
    rcases h with (h | ⟨h, h'⟩) | ⟨h, h'⟩
    · exact .inr (.inr (isDigit_iff.mp h))
    · exact .inr (.inl ⟨h, Char.le_trans h' (by decide)⟩)
    · exact .inl ⟨h, Char.le_trans h' (by decide)⟩
  rw [isNameChar, alphanum, Bool.true_or]

end

section
variable {cs : List Char} {n : Nat}

theorem isHexDigit_or_eq_of_numeral? (h : numeral? cs = some n) :
    ∀ c ∈ cs, isHexDigit c = true ∨ c = 'x' := by
  intro c hc
  rcases (numeral?_eq_some_iff.mp h).1 with ⟨-, hd⟩ | ⟨ds, rfl, -, hd⟩
  · exact .inl (isHexDigit_of_isDigit (hd c hc))
  · rcases List.mem_cons.mp hc with rfl | hc
    · exact .inl (by decide)
    · exact (List.mem_cons.mp hc).symm.imp_left (hd c)

theorem isDataChar_of_numeral? (h : numeral? cs = some n) : ∀ c ∈ cs, isDataChar c = true := by
  intro c hc
  rcases isHexDigit_or_eq_of_numeral? h c hc with hc | rfl
  · exact isDataChar_of_isHexDigit hc
  · decide

theorem isNameChar_of_numeral? (h : numeral? cs = some n) : ∀ c ∈ cs, isNameChar c = true := by
  intro c hc
  rcases isHexDigit_or_eq_of_numeral? h c hc with hc | rfl
  · exact isNameChar_of_isHexDigit hc
  · decide

theorem ne_nil_of_numeral? (h : numeral? cs = some n) : cs ≠ [] := by
  rcases (numeral?_eq_some_iff.mp h).1 with ⟨hne, -⟩ | ⟨ds, rfl, -⟩
  · exact hne
  · simp

end

end ByteMachine.Source
