import ByteMachine.Proofs.Source.Arguments
import ByteMachine.Proofs.Source.Encoding

/-!
# The grammar of code

Which statements can be encoded, said of their texts, and which error each other statement has. A line of
code is the directive with bytes, or the word of an instruction with as many operands as it takes, each of
its form (`Statement.IsGrammatical`). A statement can be wrong in four ways (`Statement.IsFaulty`): its
word, then the number of its operands, then the leftmost operand that is not of its form, which may also be
a byte of data.

* `decides_byte`, `decides_operand`: the reader of a form answers the operands of this form, and has one
  error for each other text;
* `instruction_eq_error_iff`: the operands of an instruction are read from the left;
* `encode_grammar`: the encoder accepts the grammar, and nothing else.
-/

namespace ByteMachine.Source

open Text

/-! ### The table of instructions -/

/-- The words of the instructions, and the forms of the operands of each. -/
def instructionTable : List (String × List OperandForm) :=
  [("STOPP", []), ("SETT", [.register, .source]), ("FINN", [.address]), ("LAST", [.register]),
    ("LAGR", [.register]),
    ("OG", [.register, .register]), ("ELLER", [.register, .register]), ("XELLER", [.register, .register]),
    ("VSKIFT", [.register, .register]), ("HSKIFT", [.register, .register]),
    ("PLUSS", [.register, .register]), ("MINUS", [.register, .register]),
    ("LES", [.register]), ("SKRIV", [.register]),
    ("LIK", [.register, .register]), ("ULIK", [.register, .register]), ("ME", [.register, .register]),
    ("MEL", [.register, .register]), ("SE", [.register, .register]), ("SEL", [.register, .register]),
    ("HOPP", [.address]), ("BHOPP", [.address]), ("TUR", [.address]), ("RETUR", []), ("NOPE", [])]

theorem instructionTable_eq :
    instructionTable = Mnemonic.all.map fun m => (m.name, m.signature) := rfl

theorem mem_instructionTable_iff {op : String} {forms : List OperandForm} :
    (op, forms) ∈ instructionTable ↔ ∃ m : Mnemonic, m.name = op ∧ m.signature = forms := by
  rw [instructionTable_eq, List.mem_map]
  constructor
  · rintro ⟨m, -, h⟩
    exact ⟨m, Prod.mk.inj h⟩
  · rintro ⟨m, rfl, rfl⟩
    exact ⟨m, m.mem_all, rfl⟩

/-! ### The forms of operands -/

/-- The text is the letter `r` and a decimal number below sixteen, with any number of leading zeros. -/
def IsRegister (cs : List Char) : Prop :=
  ∃ ds, cs = 'r' :: ds ∧ (ds ≠ [] ∧ ∀ c ∈ ds, c.isDigit = true) ∧ value 10 (ds.map digitValue) < 16

/-- The text is a number up to 255. -/
def IsByte (token : String) : Prop := IsLiteral token.toList ∧ literalValue token.toList ≤ 0xFF

/-- What is wrong with a text that is no byte. -/
inductive IsNoByte : String → SourceError → Prop
  | tooLarge {token : String} (h : IsLiteral token.toList) (beyond : 0xFF < literalValue token.toList) :
    IsNoByte token (.outOfRange token 0xFF)
  | neither {token : String} (h : ¬IsLiteral token.toList) : IsNoByte token (.unexpectedToken token)

/-- The text is an operand of the form. A number is no label, whatever labels there are. -/
inductive IsOperand (labels : Labels) : OperandForm → String → Prop
  | register {token : String} (h : IsRegister token.toList) : IsOperand labels .register token
  | byte {token : String} (h : IsByte token) : IsOperand labels .source token
  | copy {token : String} (hn : ¬IsLiteral token.toList) (h : IsRegister token.toList) :
    IsOperand labels .source token
  | number {token : String} (h : IsLiteral token.toList) (fits : literalValue token.toList ≤ 0xFFF) :
    IsOperand labels .address token
  | label {token : String} {a : Nat} (hn : ¬IsLiteral token.toList)
    (h : labels.address? token = some a) (fits : a ≤ 0xFFF) : IsOperand labels .address token

/-- What is wrong with a text that is no operand of the form. -/
inductive IsNoOperand (labels : Labels) : OperandForm → String → SourceError → Prop
  | register {token : String} (h : ¬IsRegister token.toList) :
    IsNoOperand labels .register token (.invalidRegister token)
  | byte {token : String} (h : IsLiteral token.toList) (beyond : 0xFF < literalValue token.toList) :
    IsNoOperand labels .source token (.outOfRange token 0xFF)
  | copy {token : String} (hn : ¬IsLiteral token.toList) (h : ¬IsRegister token.toList) :
    IsNoOperand labels .source token (.invalidRegister token)
  | number {token : String} (h : IsLiteral token.toList) (beyond : 0xFFF < literalValue token.toList) :
    IsNoOperand labels .address token (.outOfRange token 0xFFF)
  | label {token : String} {a : Nat} (hn : ¬IsLiteral token.toList)
    (h : labels.address? token = some a) (beyond : 0xFFF < a) :
    IsNoOperand labels .address token (.outOfRange token 0xFFF)
  | undefined {token : String} (hn : ¬IsLiteral token.toList) (h : labels.address? token = none) :
    IsNoOperand labels .address token (.unexpectedToken token)

/-! ### Statements -/

/-- The statement is a line of data, or an instruction with its operands. -/
inductive Statement.IsGrammatical (labels : Labels) : Statement → Prop
  | data {args : List String} (h : ∀ arg ∈ args, IsByte arg) : IsGrammatical labels ⟨".DATA", args⟩
  | instruction {op : String} {forms : List OperandForm} {args : List String}
    (row : (op, forms) ∈ instructionTable) (h : List.Forall₂ (IsOperand labels) forms args) :
    IsGrammatical labels ⟨op, args⟩

/-- What is wrong with a statement: the first of its faults, in the order of the constructors, and from the
left among its arguments. -/
inductive Statement.IsFaulty (labels : Labels) : Statement → SourceError → Prop
  | unknown {op : String} {args : List String} (hd : op ≠ ".DATA")
    (h : ∀ forms, (op, forms) ∉ instructionTable) : IsFaulty labels ⟨op, args⟩ (.unexpectedToken op)
  | count {op : String} {forms : List OperandForm} {args : List String}
    (row : (op, forms) ∈ instructionTable) (h : args.length ≠ forms.length) :
    IsFaulty labels ⟨op, args⟩ (.argumentCount op forms.length args)
  | operand {op token : String} {before after : List String} {form : OperandForm}
    {formsBefore formsAfter : List OperandForm} {e : SourceError}
    (row : (op, formsBefore ++ form :: formsAfter) ∈ instructionTable)
    (count : after.length = formsAfter.length) (passed : List.Forall₂ (IsOperand labels) formsBefore before)
    (h : IsNoOperand labels form token e) : IsFaulty labels ⟨op, before ++ token :: after⟩ e
  | byte {token : String} {before after : List String} {e : SourceError}
    (passed : ∀ arg ∈ before, IsByte arg) (h : IsNoByte token e) :
    IsFaulty labels ⟨".DATA", before ++ token :: after⟩ e

/-! ### Readers -/

section
variable {τ α : Type} {reader : τ → Except SourceError α} {isRight : τ → Prop}
  {isWrong : τ → SourceError → Prop}

/-- The reader answers what is right, and has one error for everything else. -/
structure Decides (reader : τ → Except SourceError α) (isRight : τ → Prop)
    (isWrong : τ → SourceError → Prop) : Prop where
  ok_iff : ∀ t, (∃ a, reader t = .ok a) ↔ isRight t
  error_iff : ∀ t e, reader t = .error e ↔ isWrong t e

/-- Where everything is right or wrong, it is enough that the reader respects both. -/
theorem Decides.of_total (total : ∀ t, isRight t ∨ ∃ e, isWrong t e)
    (ok : ∀ t, isRight t → ∃ a, reader t = .ok a)
    (error : ∀ t e, isWrong t e → reader t = .error e) : Decides reader isRight isWrong where
  ok_iff t := by
    refine ⟨fun ⟨a, ha⟩ => (total t).resolve_right ?_, ok t⟩
    rintro ⟨e, he⟩
    rw [error t e he] at ha
    cases ha
  error_iff t e := by
    refine ⟨fun he => ?_, error t e⟩
    rcases total t with right | ⟨e', he'⟩
    · obtain ⟨a, ha⟩ := ok t right
      rw [ha] at he
      cases he
    · rw [error t e' he'] at he
      rwa [← Except.error.inj he]

end

/-! ### Operands -/

section
variable {token : String} {max : Nat}

theorem number_of_le (h : IsLiteral token.toList) (hle : literalValue token.toList ≤ max) :
    number token max = .ok (some (literalValue token.toList)) :=
  number_eq_ok_some_iff.mpr ⟨numeral?_eq_some_iff.mpr ⟨h, rfl⟩, hle⟩

theorem number_of_lt (h : IsLiteral token.toList) (hlt : max < literalValue token.toList) :
    number token max = .error (.outOfRange token max) :=
  number_eq_error_iff.mpr ⟨⟨_, numeral?_eq_some_iff.mpr ⟨h, rfl⟩, hlt⟩, rfl⟩

theorem number_of_not_isLiteral (h : ¬IsLiteral token.toList) : number token max = .ok none :=
  number_eq_ok_none_iff.mpr (numeral?_eq_none_iff.mpr h)

theorem ofName?_eq_some_iff {r : Register} : Register.ofName? token = some r ↔
    ∃ ds, token.toList = 'r' :: ds ∧ (ds ≠ [] ∧ ∀ c ∈ ds, c.isDigit = true) ∧
      r.val = value 10 (ds.map digitValue) := by
  simp only [Register.ofName?_eq_some_iff, read?_ten_eq_some_iff]

theorem exists_register_iff : (∃ r, register token = .ok r) ↔ IsRegister token.toList := by
  simp only [register_eq_ok_iff, ofName?_eq_some_iff]
  constructor
  · rintro ⟨r, ds, hds, hdigits, hr⟩
    exact ⟨ds, hds, hdigits, hr ▸ r.isLt⟩
  · rintro ⟨ds, hds, hdigits, hlt⟩
    exact ⟨⟨_, hlt⟩, ds, hds, hdigits, rfl⟩

theorem register_of_not_isRegister (h : ¬IsRegister token.toList) :
    register token = .error (.invalidRegister token) := by
  rw [← exists_register_iff] at h
  unfold register at h ⊢
  split
  · rename_i r hr
    simp [hr] at h
  · rfl

end

section
variable {labels : Labels} {token : String}

theorem address_of_le (h : IsLiteral token.toList) (fits : literalValue token.toList ≤ 0xFFF) :
    ∃ a, address token labels = .ok a :=
  ⟨_, address_eq_ok_iff.mpr ⟨_, .inl (numeral?_eq_some_iff.mpr ⟨h, rfl⟩), fits, rfl⟩⟩

theorem address_of_lt (h : IsLiteral token.toList) (beyond : 0xFFF < literalValue token.toList) :
    address token labels = .error (.outOfRange token 0xFFF) := by
  have number : number token addressMax.toNat = .error (.outOfRange token 0xFFF) := number_of_lt h beyond
  rw [address, number]
  rfl

theorem address_of_not_isLiteral (hn : ¬IsLiteral token.toList) :
    address token labels = match labels.address? token with
      | none => .error (.unexpectedToken token)
      | some n => if n ≤ 0xFFF then .ok (UInt16.ofNat n) else .error (.outOfRange token 0xFFF) := by
  rw [address, number_of_not_isLiteral hn]
  rfl

end

theorem decides_byte : Decides byte IsByte IsNoByte := by
  refine .of_total (fun token => ?_) (fun token h => ?_) (fun token e h => ?_)
  · by_cases h : IsLiteral token.toList
    · rcases Nat.lt_or_ge 0xFF (literalValue token.toList) with beyond | fits
      · exact .inr ⟨_, .tooLarge h beyond⟩
      · exact .inl ⟨h, fits⟩
    · exact .inr ⟨_, .neither h⟩
  · obtain ⟨h, fits⟩ := h
    exact ⟨_, by rw [byte, number_of_le h fits]; rfl⟩
  · cases h with
    | tooLarge h beyond => rw [byte, number_of_lt h beyond]; rfl
    | neither h => rw [byte, number_of_not_isLiteral h]; rfl

/-- The operand of a text, by its form. -/
def operand (labels : Labels) : OperandForm → String → Except SourceError Operand
  | .register, token => do return .register (← register token)
  | .source, token => do
    match ← number token 0xFF with
    | some n => return .number n
    | none => return .register (← register token)
  | .address, token => do return .number (← address token labels).toNat

theorem isOperand_or_isNoOperand (labels : Labels) (form : OperandForm) (token : String) :
    IsOperand labels form token ∨ ∃ e, IsNoOperand labels form token e := by
  cases form with
  | register =>
    by_cases h : IsRegister token.toList
    · exact .inl (.register h)
    · exact .inr ⟨_, .register h⟩
  | source =>
    by_cases hl : IsLiteral token.toList
    · rcases Nat.lt_or_ge 0xFF (literalValue token.toList) with beyond | fits
      · exact .inr ⟨_, .byte hl beyond⟩
      · exact .inl (.byte ⟨hl, fits⟩)
    · by_cases h : IsRegister token.toList
      · exact .inl (.copy hl h)
      · exact .inr ⟨_, .copy hl h⟩
  | address =>
    by_cases hl : IsLiteral token.toList
    · rcases Nat.lt_or_ge 0xFFF (literalValue token.toList) with beyond | fits
      · exact .inr ⟨_, .number hl beyond⟩
      · exact .inl (.number hl fits)
    · cases ha : labels.address? token with
      | none => exact .inr ⟨_, .undefined hl ha⟩
      | some a =>
        rcases Nat.lt_or_ge 0xFFF a with beyond | fits
        · exact .inr ⟨_, .label hl ha beyond⟩
        · exact .inl (.label hl ha fits)

theorem exists_operand {labels : Labels} {form : OperandForm} {token : String}
    (h : IsOperand labels form token) : ∃ o, operand labels form token = .ok o := by
  cases h with
  | register h =>
    obtain ⟨r, hr⟩ := exists_register_iff.mpr h
    exact ⟨.register r, by rw [operand, hr]; rfl⟩
  | byte h => exact ⟨.number _, by rw [operand, number_of_le h.1 h.2]; rfl⟩
  | copy hn h =>
    obtain ⟨r, hr⟩ := exists_register_iff.mpr h
    exact ⟨.register r, by rw [operand, number_of_not_isLiteral hn, hr]; rfl⟩
  | number h fits =>
    obtain ⟨a, ha⟩ : ∃ a, address token labels = .ok a := address_of_le h fits
    exact ⟨.number a.toNat, by rw [operand, ha]; rfl⟩
  | @label token a hn h fits =>
    have ha : address token labels = .ok (UInt16.ofNat a) := by
      rw [address_of_not_isLiteral hn, h]
      exact if_pos fits
    exact ⟨_, by rw [operand, ha]; rfl⟩

theorem operand_eq_error {labels : Labels} {form : OperandForm} {token : String} {e : SourceError}
    (h : IsNoOperand labels form token e) : operand labels form token = .error e := by
  cases h with
  | register h => rw [operand, register_of_not_isRegister h]; rfl
  | byte h beyond => rw [operand, number_of_lt h beyond]; rfl
  | copy hn h => rw [operand, number_of_not_isLiteral hn, register_of_not_isRegister h]; rfl
  | number h beyond => rw [operand, address_of_lt h beyond]; rfl
  | label hn h beyond =>
    have he : address token labels = .error (.outOfRange token 0xFFF) := by
      rw [address_of_not_isLiteral hn, h]
      exact if_neg (Nat.not_le.mpr beyond)
    rw [operand, he]
    rfl
  | undefined hn h =>
    have he : address token labels = .error (.unexpectedToken token) := by
      rw [address_of_not_isLiteral hn, h]
    rw [operand, he]
    rfl

theorem decides_operand (labels : Labels) (form : OperandForm) :
    Decides (operand labels form) (IsOperand labels form) (IsNoOperand labels form) :=
  .of_total (isOperand_or_isNoOperand labels form) (fun _ => exists_operand)
    (fun _ _ => operand_eq_error)

/-! ### Instructions -/

section
variable {labels : Labels} {m : Mnemonic} {args : List String}

theorem map_operands_instruction (h : args.length = m.arity) :
    (instruction labels m args).map Instruction.operands =
      (m.signature.zip args).mapM fun p => operand labels p.1 p.2 := by
  -- the cases are those of one signature
  cases m with
  | halt | ret | nop =>
    obtain rfl := List.eq_nil_of_length_eq_zero h
    rfl
  | load | store | read | write =>
    obtain ⟨token, rfl⟩ := List.length_eq_one_iff.mp h
    simp only [instruction, Mnemonic.signature, List.zip_cons_cons, List.zip_nil_right, List.mapM_cons,
      List.mapM_nil, operand]
    cases register token <;> rfl
  | locate | jump | jumpIf | call =>
    obtain ⟨token, rfl⟩ := List.length_eq_one_iff.mp h
    simp only [instruction, Mnemonic.signature, List.zip_cons_cons, List.zip_nil_right, List.mapM_cons,
      List.mapM_nil, operand]
    cases address token labels <;> rfl
  | arithmetic op | compare relation =>
    obtain ⟨left, right, rfl⟩ := List.length_eq_two.mp h
    simp only [instruction, Mnemonic.signature, List.zip_cons_cons, List.zip_nil_right, List.mapM_cons,
      List.mapM_nil, operand]
    cases register left <;> cases register right <;> rfl
  | set =>
    obtain ⟨target, source, rfl⟩ := List.length_eq_two.mp h
    simp only [instruction, Mnemonic.signature, List.zip_cons_cons, List.zip_nil_right, List.mapM_cons,
      List.mapM_nil, operand]
    cases register target with
    | error e => rfl
    | ok t =>
      cases hv : number source 0xFF with
      | error e => rfl
      | ok value =>
        cases value with
        | none => cases register source <;> rfl
        | some n =>
          have byte : (UInt8.ofNat n).toNat = n :=
            UInt8.toNat_ofNat_of_lt' (Nat.lt_succ_of_le (number_eq_ok_some_iff.mp hv).2)
          exact congrArg (fun n => Except.ok [Operand.register t, .number n]) byte

theorem exists_instruction_iff : (∃ i, instruction labels m args = .ok i) ↔
    List.Forall₂ (IsOperand labels) m.signature args := by
  by_cases h : args.length = m.arity
  · have forms : (∃ i, instruction labels m args = .ok i) ↔
        ∃ os, (m.signature.zip args).mapM (fun p => operand labels p.1 p.2) = .ok os := by
      simp only [← map_operands_instruction h, map_eq_ok_iff]
      exact ⟨fun ⟨i, hi⟩ => ⟨_, i, hi, rfl⟩, fun ⟨_, i, hi, _⟩ => ⟨i, hi⟩⟩
    rw [forms, exists_mapM_zip_eq_ok_iff h]
    simp only [(decides_operand labels _).ok_iff]
  · constructor
    · rintro ⟨i, hi⟩
      exact absurd (length_of_instruction hi) h
    · intro hall
      exact absurd hall.length_eq.symm h

/-- An instruction with as many arguments as it takes has the error of the leftmost one that is not of its
form. -/
theorem instruction_eq_error_iff (h : args.length = m.arity) {e : SourceError} :
    instruction labels m args = .error e ↔ ∃ formsBefore form formsAfter before token after,
      m.signature = formsBefore ++ form :: formsAfter ∧ args = before ++ token :: after ∧
        after.length = formsAfter.length ∧ List.Forall₂ (IsOperand labels) formsBefore before ∧
        IsNoOperand labels form token e := by
  have forms : instruction labels m args = .error e ↔
      (m.signature.zip args).mapM (fun p => operand labels p.1 p.2) = .error e := by
    rw [← map_operands_instruction h, map_eq_error_iff]
  rw [forms, mapM_zip_eq_error_iff h]
  simp only [(decides_operand labels _).ok_iff, (decides_operand labels _).error_iff]

end

/-! ### Lines of code -/

theorem mapM_byte_eq_error_iff {args : List String} {e : SourceError} :
    args.mapM byte = .error e ↔ ∃ before token after, args = before ++ token :: after ∧
      (∀ arg ∈ before, IsByte arg) ∧ IsNoByte token e := by
  simp only [mapM_eq_error_iff, decides_byte.ok_iff, decides_byte.error_iff]

theorem exists_mapM_byte_iff {args : List String} :
    (∃ bytes, args.mapM byte = .ok bytes) ↔ ∀ arg ∈ args, IsByte arg := by
  simp only [exists_mapM_eq_ok_iff, decides_byte.ok_iff]

theorem ofName?_of_row {op : String} {forms : List OperandForm} (h : (op, forms) ∈ instructionTable) :
    ∃ m, Mnemonic.ofName? op = some m ∧ m.signature = forms ∧ op.toList ≠ dataDirective := by
  obtain ⟨m, rfl, rfl⟩ := mem_instructionTable_iff.mp h
  exact ⟨m, Mnemonic.ofName?_name m, rfl, (isOperation_name m).ne_directive⟩

section
variable {labels : Labels} {t : Statement} {e : SourceError}

theorem exists_encode_of_isGrammatical (h : t.IsGrammatical labels) :
    ∃ bytes, encode labels t = .ok bytes := by
  cases h with
  | data h =>
    rw [encode_data]
    exact exists_mapM_byte_iff.mpr h
  | instruction row h =>
    obtain ⟨m, hm, rfl, hd⟩ := ofName?_of_row row
    obtain ⟨i, hi⟩ := exists_instruction_iff.mpr h
    exact ⟨i.toBytes, by rw [encode_of_mnemonic hd hm, hi]; rfl⟩

theorem encode_of_isFaulty (h : t.IsFaulty labels e) : encode labels t = .error e := by
  cases h with
  | unknown hd h =>
    refine encode_of_unknown (fun he => hd (String.toList_inj.mp he)) ?_
    refine Option.eq_none_iff_forall_ne_some.mpr fun m hm => ?_
    exact h m.signature (mem_instructionTable_iff.mpr ⟨m, Mnemonic.ofName?_eq_some_iff.mp hm, rfl⟩)
  | count row h =>
    obtain ⟨m, hm, rfl, hd⟩ := ofName?_of_row row
    rw [encode_of_mnemonic hd hm, instruction_of_length_ne h, Mnemonic.ofName?_eq_some_iff.mp hm]
    rfl
  | operand row count passed h =>
    obtain ⟨m, hm, forms, hd⟩ := ofName?_of_row row
    rw [encode_of_mnemonic hd hm, map_eq_error_iff]
    refine (instruction_eq_error_iff ?_).mpr ⟨_, _, _, _, _, _, forms, rfl, count, passed, h⟩
    rw [Mnemonic.arity, forms, List.length_append, List.length_append, List.length_cons, List.length_cons,
      passed.length_eq, count]
  | byte passed h =>
    rw [encode_data]
    exact mapM_byte_eq_error_iff.mpr ⟨_, _, _, rfl, passed, h⟩

theorem isGrammatical_or_isFaulty (labels : Labels) (t : Statement) :
    t.IsGrammatical labels ∨ ∃ e, t.IsFaulty labels e := by
  obtain ⟨op, args⟩ := t
  by_cases hd : op = ".DATA"
  · subst hd
    cases hb : args.mapM byte with
    | ok bytes => exact .inl (.data (exists_mapM_byte_iff.mp ⟨bytes, hb⟩))
    | error e =>
      obtain ⟨before, token, after, rfl, passed, h⟩ := mapM_byte_eq_error_iff.mp hb
      exact .inr ⟨e, .byte passed h⟩
  · by_cases known : ∃ forms, (op, forms) ∈ instructionTable
    · obtain ⟨forms, row⟩ := known
      obtain ⟨m, -, rfl, -⟩ := ofName?_of_row row
      by_cases count : args.length = m.arity
      · cases hi : instruction labels m args with
        | ok i => exact .inl (.instruction row (exists_instruction_iff.mp ⟨i, hi⟩))
        | error e =>
          obtain ⟨_, form, _, before, token, after, forms, rfl, count, passed, h⟩ :=
            (instruction_eq_error_iff count).mp hi
          exact .inr ⟨e, .operand (forms ▸ row) count passed h⟩
      · exact .inr ⟨_, .count row count⟩
    · exact .inr ⟨_, .unknown hd (not_exists.mp known)⟩

end

/-- **The grammar is what the encoder accepts**, and every other statement has the error of its first
fault. -/
theorem encode_grammar (labels : Labels) (t : Statement) :
    ((∃ bytes, encode labels t = .ok bytes) ↔ t.IsGrammatical labels) ∧
      ∀ e, encode labels t = .error e ↔ t.IsFaulty labels e := by
  have decides : Decides (encode labels) (·.IsGrammatical labels) (·.IsFaulty labels) :=
    .of_total (isGrammatical_or_isFaulty labels) (fun _ => exists_encode_of_isGrammatical)
      (fun _ _ => encode_of_isFaulty)
  exact ⟨decides.ok_iff t, decides.error_iff t⟩

/-- Of two wrong operands the left one is reported. -/
example : encode [] ⟨"SETT", ["r16", "256"]⟩ = .error (.invalidRegister "r16") := by decide +kernel

end ByteMachine.Source
