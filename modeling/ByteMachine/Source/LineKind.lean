import ByteMachine.Text.Blank

/-!
# Kinds of source lines

A line holds nothing, a comment, a label, data or an instruction. A semicolon starts a comment that
reaches to the end of the line; what stands before it is the code of the line. A label is a name and a
colon. Data is the directive `.DATA`, alone or before a text of digits of base sixteen, the letter `x`,
commas and blanks. Every other code is an instruction, whether it can be encoded or not.

Main statements: `not_mem_code` (code holds no semicolon), `code_append_comment` (what follows a
semicolon does not matter), `ofLine_eq_blank_iff`.
-/

namespace ByteMachine.Source

open Text

/-! ### Code and comments -/

/-- The line up to its first semicolon. -/
def code (raw : List Char) : List Char := raw.takeWhile (· != ';')

theorem not_mem_code (raw : List Char) : ';' ∉ code raw := by
  intro h
  have := List.all_takeWhile (l := raw) (p := (· != ';'))
  simpa using List.all_eq_true.mp this _ h

/-- What follows a semicolon does not matter. -/
theorem code_append_comment (raw rest : List Char) : code (raw ++ ';' :: rest) = code raw := by
  induction raw with
  | nil => simp [code]
  | cons c cs ih =>
    by_cases h : c = ';'
    · simp [code, h]
    · simpa [code, h] using ih

/-- A line without a semicolon is all code. -/
theorem code_eq_self {raw : List Char} (h : ';' ∉ raw) : code raw = raw := by
  induction raw with
  | nil => rfl
  | cons c cs ih =>
    simp only [List.mem_cons, not_or] at h
    have hc : (c != ';') = true := bne_iff_ne.mpr fun e => h.1 e.symm
    rw [code, List.takeWhile_cons, if_pos hc, ← code, ih h.2]

/-! ### Labels -/

/-- A character of a label's name: an ASCII letter or digit, a Norwegian letter, a hyphen or an
underscore. -/
def isNameChar (c : Char) : Bool := c.isAlphanum || "æøåÆØÅ-_".toList.contains c

/-- The name before the colon that ends a text. -/
def labelName? (text : List Char) : Option (List Char) :=
  if text.getLast? = some ':' then
    let name := text.dropLast
    if !name.isEmpty && name.all isNameChar then some name else none
  else none

/-- A name and a colon are a label. -/
theorem labelName?_append_colon {name : List Char} (hne : name ≠ [])
    (h : ∀ c ∈ name, isNameChar c = true) : labelName? (name ++ [':']) = some name := by
  have hall : name.all isNameChar = true := List.all_eq_true.mpr h
  simp [labelName?, hne, hall]

/-! ### Data -/

/-- The directive that places bytes. -/
def dataDirective : List Char := ['.', 'D', 'A', 'T', 'A']

/-- A character of the operands of data. -/
def isDataChar (c : Char) : Bool :=
  c.isDigit || ('a' ≤ c && c ≤ 'f') || ('A' ≤ c && c ≤ 'F') || c == 'x' || c == ',' || isBlank c

/-- The code is the data directive, alone or before a blank and operands of data. -/
def isData (text : List Char) : Bool :=
  match dataDirective.isPrefixOf? text with
  | none => false
  | some [] => true
  | some (c :: rest) => isBlank c && rest.all isDataChar

/-! ### Kinds -/

/-- What a line holds. -/
inductive LineKind where
  | blank
  | comment
  | label (name : String)
  | data
  | instruction
  deriving DecidableEq, Repr

/-- What the code of a line holds if there is any. -/
def LineKind.ofCode (text : List Char) : LineKind :=
  match labelName? text with
  | some name => .label (String.ofList name)
  | none => if isData text then .data else .instruction

/-- What a line holds. -/
def LineKind.ofLine (raw : List Char) : LineKind :=
  match trim raw with
  | [] => .blank
  | ';' :: _ => .comment
  | line => .ofCode (trim (code line))

theorem LineKind.ofCode_ne_blank (text : List Char) : LineKind.ofCode text ≠ .blank := by
  unfold LineKind.ofCode
  split
  · simp
  · split <;> simp

/-- Only a line of blanks holds nothing. -/
theorem LineKind.ofLine_eq_blank_iff {raw : List Char} :
    LineKind.ofLine raw = .blank ↔ ∀ c ∈ raw, isBlank c = true := by
  rw [← trim_eq_nil_iff, LineKind.ofLine]
  split
  · simp [*]
  · simp [*]
  · rename_i h _
    exact ⟨fun e => absurd e (LineKind.ofCode_ne_blank _), fun e => absurd e h⟩

end ByteMachine.Source
