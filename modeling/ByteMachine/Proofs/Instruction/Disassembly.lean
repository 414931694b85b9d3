import ByteMachine.Monitor.Trace
import ByteMachine.Proofs.Text.Columns
import ByteMachine.Source.Listing

/-!
# Instructions told by their text

The text of an instruction is its mnemonic in a column of seven characters, and behind it the operands in
one of three layouts (`Columns`). The layouts open with different control sequences or close the colour of
the registers at different places, and within a layout each column has its width, but for an address at
the end. So the text tells the mnemonic and the columns (`disassemble_inj`), which tell the instruction
(`ofColumns?_columns`).

* `Columns.text_inj`: the columns can be read off the text of the operands.
* `disassemble_ne_styled`: the text of an instruction is not that of a word that is none.
* `disassembly_lossless`: the text tells the instruction, also in traces and listings.
-/

namespace ByteMachine

open Text

/-! ### Names -/

/-- The name of a mnemonic fits into its column, holds no space, and starts with a character that opens no
style. -/
theorem Mnemonic.name_fits (m : Mnemonic) :
    m.name.toList.length ≤ 7 ∧ ' ' ∉ m.name.toList ∧
      ∃ c cs, m.name.toList = c :: cs ∧ c ≠ '\x1b' := by
  have all : ∀ m ∈ Mnemonic.all, m.name.toList.length ≤ 7 ∧ ' ' ∉ m.name.toList ∧
      m.name.toList.head?.any (· != '\x1b') = true := by
    decide +kernel
  obtain ⟨width, word, first⟩ := all m m.mem_all
  obtain ⟨c, hc, plain⟩ := (Option.any_eq_true _ _).mp first
  obtain ⟨cs, hcs⟩ := List.head?_eq_some_iff.mp hc
  exact ⟨width, word, c, cs, hcs, bne_iff_ne.mp plain⟩

theorem Mnemonic.name_inj {m n : Mnemonic} (h : m.name = n.name) : m = n :=
  eq_of_read ofName?_name h

theorem Register.name_fits (r : Register) :
    r.name.toList.length ≤ 4 ∧ ' ' ∉ r.name.toList ∧ r.name ≠ "" := by
  revert r
  decide +kernel

theorem Register.name_inj {r s : Register} (h : r.name = s.name) : r = s :=
  eq_of_read ofName?_name h

/-- The word in the column of a register that may be missing. -/
def registerWord (r : Option Register) : String := r.elim "" Register.name

theorem registerWord_fits (r : Option Register) :
    (registerWord r).toList.length ≤ 4 ∧ ' ' ∉ (registerWord r).toList := by
  cases r with
  | none => decide
  | some r => exact ⟨r.name_fits.1, r.name_fits.2.1⟩

theorem registerWord_inj {r s : Option Register} (h : registerWord r = registerWord s) : r = s := by
  cases r with
  | none =>
    cases s with
    | none => rfl
    | some s => exact absurd h.symm s.name_fits.2.2
  | some r =>
    cases s with
    | none => exact absurd h r.name_fits.2.2
    | some s => exact congrArg some (Register.name_inj h)

namespace Instruction

/-! ### Layouts -/

/-- The columns behind the mnemonic: two registers of which either may be missing, a register and a byte,
or an address. -/
inductive Columns where
  | registers (first second : Option Register)
  | immediate (r : Register) (value : UInt8)
  | address (a : UInt16)

/-- The columns with their styles. -/
def Columns.spans : Columns → List Span
  | .registers first second => registerSpans first second
  | .immediate r value => immediateSpans r value
  | .address a => addressSpans a

/-- The columns of an instruction. -/
def columns : Instruction → Columns
  | .halt | .ret | .nop => .registers none none
  | .setImmediate target value => .immediate target value
  | .setRegister target source => .registers target source
  | .locate a | .jump a | .jumpIf a | .call a => .address a
  | .load r | .store r | .read r | .write r => .registers r none
  | .arithmetic _ left right | .compare _ left right => .registers left right

/-- The instruction with a mnemonic and columns. -/
def ofColumns? : Mnemonic → Columns → Option Instruction
  | .halt, .registers none none => some .halt
  | .set, .immediate target value => some (.setImmediate target value)
  | .set, .registers (some target) (some source) => some (.setRegister target source)
  | .locate, .address a => some (.locate a)
  | .load, .registers (some r) none => some (.load r)
  | .store, .registers (some r) none => some (.store r)
  | .arithmetic op, .registers (some left) (some right) => some (.arithmetic op left right)
  | .read, .registers (some r) none => some (.read r)
  | .write, .registers (some r) none => some (.write r)
  | .compare relation, .registers (some left) (some right) => some (.compare relation left right)
  | .jump, .address a => some (.jump a)
  | .jumpIf, .address a => some (.jumpIf a)
  | .call, .address a => some (.call a)
  | .ret, .registers none none => some .ret
  | .nop, .registers none none => some .nop
  | _, _ => none

theorem ofColumns?_columns (i : Instruction) : ofColumns? i.mnemonic i.columns = some i := by
  cases i <;> rfl

theorem operandSpans_eq (i : Instruction) : i.operandSpans = i.columns.spans := by
  cases i <;> rfl

/-! ### The text of the columns -/

/-- The column of a register that may be missing. -/
def registerColumn (r : Option Register) : List Char := (alignLeft 4 (registerWord r)).toList

theorem length_registerColumn (r : Option Register) : (registerColumn r).length = 4 :=
  length_alignLeft (registerWord_fits r).1

theorem registerColumn_inj {r s : Option Register} (h : registerColumn r = registerColumn s) :
    r = s :=
  registerWord_inj (toList_alignLeft_inj (registerWord_fits r).2 (registerWord_fits s).2 h)

theorem registerColumn_append_inj {r s : Option Register} {xs ys : List Char}
    (h : registerColumn r ++ xs = registerColumn s ++ ys) : r = s ∧ xs = ys := by
  have width : (registerColumn r).length = (registerColumn s).length := by
    rw [length_registerColumn, length_registerColumn]
  obtain ⟨column, rest⟩ := List.append_inj h width
  exact ⟨registerColumn_inj column, rest⟩

namespace Columns

/-- The text of the columns with their control sequences. -/
def text (c : Columns) : List Char := (render c.spans).toList

theorem text_registers (first second : Option Register) :
    (registers first second).text =
      "\x1b[34m".toList ++ (registerColumn first ++
        ' ' :: (registerColumn second ++ "\x1b[39m".toList)) := by
  simp [text, spans, registerSpans, registerColumn, registerWord, render, Style.start, Span.stop,
    Style.stop, escape]

theorem text_immediate (r : Register) (value : UInt8) :
    (immediate r value).text =
      "\x1b[34m".toList ++ (registerColumn (some r) ++
        ("\x1b[39m \x1b[33m0x".toList ++ ((hexPadded 2 value.toNat).toList ++ "\x1b[39m".toList))) := by
  simp [text, spans, immediateSpans, registerColumn, registerWord, render, Style.start, Span.stop,
    Style.stop, escape, Span.opensColour]

theorem text_address (a : UInt16) :
    (address a).text = "\x1b[33m0x".toList ++ ((hexPadded 3 a.toNat).toList ++ "\x1b[39m".toList) := by
  simp [text, spans, addressSpans, render, Style.start, Span.stop, Style.stop, escape]

/-- Behind the first register, the colour is closed before a byte and goes on before a register. -/
theorem text_registers_ne_immediate {first second : Option Register} {r : Register} {value : UInt8} :
    (registers first second).text ≠ (immediate r value).text := by
  intro h
  rw [text_registers, text_immediate] at h
  obtain ⟨-, rest⟩ := registerColumn_append_inj (List.append_cancel_left h)
  simp at rest

theorem text_address_ne {a : UInt16} {c : Columns} {rest : List Char}
    (blue : c.text = "\x1b[34m".toList ++ rest) : (address a).text ≠ c.text := by
  intro h
  rw [← h, text_address] at blue
  simp at blue

theorem text_registers_inj {first second first' second' : Option Register}
    (h : (registers first second).text = (registers first' second').text) :
    first = first' ∧ second = second' := by
  rw [text_registers, text_registers] at h
  obtain ⟨same, rest⟩ := registerColumn_append_inj (List.append_cancel_left h)
  obtain ⟨same', -⟩ := registerColumn_append_inj (List.cons.inj rest).2
  exact ⟨same, same'⟩

theorem text_immediate_inj {r r' : Register} {value value' : UInt8}
    (h : (immediate r value).text = (immediate r' value').text) : r = r' ∧ value = value' := by
  rw [text_immediate, text_immediate] at h
  obtain ⟨same, rest⟩ := registerColumn_append_inj (List.append_cancel_left h)
  have digits := List.append_cancel_right (List.append_cancel_left rest)
  exact ⟨Option.some.inj same, UInt8.toNat_inj.mp (toList_hexPadded_inj digits)⟩

theorem text_address_inj {a b : UInt16} (h : (address a).text = (address b).text) : a = b := by
  rw [text_address, text_address] at h
  have digits := List.append_cancel_right (List.append_cancel_left h)
  exact UInt16.toNat_inj.mp (toList_hexPadded_inj digits)

/-- **The columns can be read off their text.** -/
theorem text_inj {c d : Columns} (h : c.text = d.text) : c = d := by
  cases c with
  | registers first second =>
    cases d with
    | registers first' second' =>
      obtain ⟨rfl, rfl⟩ := text_registers_inj h
      rfl
    | immediate r value => exact absurd h text_registers_ne_immediate
    | address a => exact absurd h.symm (text_address_ne (text_registers first second))
  | immediate r value =>
    cases d with
    | registers first second => exact absurd h.symm text_registers_ne_immediate
    | immediate r' value' =>
      obtain ⟨rfl, rfl⟩ := text_immediate_inj h
      rfl
    | address a => exact absurd h.symm (text_address_ne (text_immediate r value))
  | address a =>
    cases d with
    | registers first second => exact absurd h (text_address_ne (text_registers first second))
    | immediate r value => exact absurd h (text_address_ne (text_immediate r value))
    | address b => exact congrArg address (text_address_inj h)

end Columns

/-! ### The text of an instruction -/

/-- The red of the mnemonic is not closed: the operands open another colour. -/
theorem toList_disassemble (i : Instruction) :
    i.disassemble.toList =
      "\x1b[31m".toList ++ ((alignLeft 7 i.mnemonic.name).toList ++ i.columns.text) := by
  have opens : i.nameSpan.stop i.columns.spans.head? = "" := by cases i <;> rfl
  rw [disassemble, operandSpans_eq, render, opens]
  simp [nameSpan, Columns.text, Style.start, escape]

theorem disassemble_inj {i j : Instruction} (h : i.disassemble = j.disassemble) : i = j := by
  replace h := congrArg String.toList h
  rw [toList_disassemble, toList_disassemble] at h
  obtain ⟨width, word, -⟩ := i.mnemonic.name_fits
  obtain ⟨width', word', -⟩ := j.mnemonic.name_fits
  obtain ⟨name, operands⟩ := List.append_inj (List.append_cancel_left h)
    ((length_alignLeft width).trans (length_alignLeft width').symm)
  have mnemonic : i.mnemonic = j.mnemonic :=
    Mnemonic.name_inj (toList_alignLeft_inj word word' name)
  have columns : i.columns = j.columns := Columns.text_inj operands
  have same := ofColumns?_columns i
  rw [mnemonic, columns, ofColumns?_columns] at same
  exact (Option.some.inj same).symm

/-- The text of an instruction is not that of a word or of bytes that are none. -/
theorem disassemble_ne_styled (i : Instruction) (s : String) :
    i.disassemble ≠ styled [.red, .bold] s := by
  obtain ⟨-, -, c, cs, hname, hc⟩ := i.mnemonic.name_fits
  intro same
  -- behind the sequence that opens the red colour
  have sixth := congrArg (fun s : String => s.toList[5]?) same
  simp [toList_disassemble, toList_alignLeft, styled, render, Style.start, escape, hname, hc] at sixth

theorem disassemble_ne_empty (i : Instruction) : i.disassemble ≠ "" := by
  intro h
  have text := toList_disassemble i
  rw [h] at text
  cases text

/-! ### Traces and listings -/

theorem elim_disassemble_eq_iff {read : Option Instruction} {mark : String} {i : Instruction} :
    read.elim (styled [.red, .bold] mark) disassemble = i.disassemble ↔ read = some i := by
  cases read with
  | none => simp [(i.disassemble_ne_styled mark).symm]
  | some j =>
    rw [Option.elim_some, Option.some.injEq]
    exact ⟨disassemble_inj, congrArg disassemble⟩

theorem disassembly_trace_eq_iff {w : UInt16} {i : Instruction} :
    Trace.disassembly w = i.disassemble ↔ ofWord? w = some i := by
  have shown : Trace.disassembly w = (ofWord? w).elim (styled [.red, .bold] "????") disassemble := by
    unfold Trace.disassembly
    split <;> simp [*]
  rw [shown, elim_disassemble_eq_iff]

theorem disassembly_listing_eq_iff {kind : Source.LineKind} {bytes : List UInt8} {i : Instruction} :
    Source.Listing.disassembly kind bytes = i.disassemble ↔
      kind = .instruction ∧
        ∃ low high, bytes = [low, high] ∧ ofWord? (Word.ofBytes low high) = some i := by
  have shown (low high : UInt8) : Source.Listing.disassembly .instruction [low, high] =
      (ofWord? (Word.ofBytes low high)).elim (styled [.red, .bold] "??") disassemble := by
    unfold Source.Listing.disassembly
    dsimp only
    split <;> simp [*]
  constructor
  · intro h
    unfold Source.Listing.disassembly at h
    split at h
    · rename_i low high
      exact ⟨rfl, low, high, rfl, elim_disassemble_eq_iff.mp ((shown low high).symm.trans h)⟩
    · exact absurd h.symm i.disassemble_ne_empty
  · rintro ⟨rfl, low, high, rfl, read⟩
    rw [shown, elim_disassemble_eq_iff]
    exact read

/-- **The text tells the instruction.** No two instructions have one text, whatever registers, bytes and
addresses they have. A trace shows the text of an instruction exactly for the words that are read as this
instruction, and a listing exactly for the lines of code whose two bytes are. -/
theorem disassembly_lossless :
    (∀ i j : Instruction, i.disassemble = j.disassemble ↔ i = j) ∧
      (∀ (w : UInt16) (i : Instruction),
        Trace.disassembly w = i.disassemble ↔ ofWord? w = some i) ∧
      ∀ (kind : Source.LineKind) (bytes : List UInt8) (i : Instruction),
        Source.Listing.disassembly kind bytes = i.disassemble ↔
          kind = .instruction ∧
            ∃ low high, bytes = [low, high] ∧ ofWord? (Word.ofBytes low high) = some i :=
  ⟨fun _ _ => ⟨disassemble_inj, congrArg disassemble⟩, fun _ _ => disassembly_trace_eq_iff,
    fun _ _ _ => disassembly_listing_eq_iff⟩

/-- An address that is wider than its column is not cut. -/
example : (Instruction.jump 0xFFFF).disassemble = "\x1b[31mHOPP   \x1b[33m0xFFFF\x1b[39m" := by
  decide +kernel

end Instruction

end ByteMachine
