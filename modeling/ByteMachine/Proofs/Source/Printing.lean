import ByteMachine.Proofs.Source.Arguments
import ByteMachine.Proofs.Source.Parts
import ByteMachine.Proofs.Source.Rendering
import ByteMachine.Proofs.Text.Lines
import ByteMachine.Source.Item

/-!
# Programs written as source text

Instructions and bytes can be written line by line, without labels: the mnemonic or the data directive,
and behind it the operands, a register by its name and a number in base ten or sixteen
(`Operand.Spells`, `Item.IsLine`). Such lines assemble to the bytes of what they write
(`assemble_of_items`).

Each form of operand says how large a number may be (`OperandForm.Admits`). An operand that is written
and admitted is read back, so only the operands of the instructions have to be looked at one by one
(`forall₂_admits`), and not the ways to write them.
-/

namespace ByteMachine

open Text

/-! ### Operands -/

/-- The text is the name of the register, or the number in base ten or sixteen. -/
inductive Operand.Spells : String → Operand → Prop
  | register (r : Register) : Spells r.name (.register r)
  | number {text : String} (h : Source.IsLiteral text.toList) :
    Spells text (.number (Source.literalValue text.toList))

/-- The form has room for the operand. -/
inductive OperandForm.Admits : OperandForm → Operand → Prop
  | register (r : Register) : Admits .register (.register r)
  | immediate {n : Nat} (h : n ≤ 0xFF) : Admits .source (.number n)
  | copy (r : Register) : Admits .source (.register r)
  | address {n : Nat} (h : n ≤ addressMax.toNat) : Admits .address (.number n)

theorem Operand.spells_iff_isWritten {text : String} {o : Operand} :
    Spells text o ↔ IsWritten text o := by
  cases o with
  | register r =>
    constructor
    · intro h
      cases h
      rfl
    · rintro rfl
      exact .register r
  | number n =>
    rw [IsWritten, Source.numeral?_eq_some_iff]
    constructor
    · intro h
      cases h with
      | number h => exact ⟨h, rfl⟩
    · rintro ⟨h, rfl⟩
      exact .number h

theorem Operand.areWritten_iff_spells {texts : List String} {os : List Operand} :
    AreWritten texts os ↔ List.Forall₂ Spells texts os := by
  have same : Spells = IsWritten := by
    funext text o
    exact propext spells_iff_isWritten
  rw [areWritten_iff_forall₂, same]

theorem Register.numeral?_name (r : Register) : Source.numeral? r.name.toList = none := by
  revert r
  decide +kernel

theorem Register.isArgument_name (r : Register) : Source.Statement.IsArgument r.name := by
  have all : ∀ r : Register, r.name.toList ≠ [] ∧
      (r.name.toList.all fun c => !isBlank c && c != ',' && c != ';') = true := by
    decide +kernel
  obtain ⟨hne, chars⟩ := all r
  refine ⟨hne, fun c hc => ?_⟩
  simpa [and_assoc] using List.all_eq_true.mp chars c hc

theorem Operand.IsWritten.isArgument {text : String} {o : Operand} (h : IsWritten text o) :
    Source.Statement.IsArgument text := by
  cases o with
  | register r =>
    obtain rfl : text = r.name := h
    exact r.isArgument_name
  | number n => exact Source.Statement.isArgument_of_numeral? h

theorem Instruction.forall₂_admits {i : Instruction}
    (h : ∀ a, i.address? = some a → a.toNat ≤ addressMax.toNat) :
    List.Forall₂ OperandForm.Admits i.mnemonic.signature i.operands := by
  cases i with
  | halt | ret | nop => exact .nil
  | load r | store r | read r | write r => exact .cons (.register r) .nil
  | locate a | jump a | jumpIf a | call a => exact .cons (.address (h a rfl)) .nil
  | arithmetic op left right | compare relation left right =>
    exact .cons (.register left) (.cons (.register right) .nil)
  | setImmediate target value =>
    have byte : value.toNat ≤ 0xFF := Nat.le_of_lt_succ value.toNat_lt
    exact .cons (.register target) (.cons (.immediate byte) .nil)
  | setRegister target source => exact .cons (.register target) (.cons (.copy source) .nil)

namespace Source

section
variable {labels : Labels}

theorem isRead_of_isWritten {form : OperandForm} {text : String} {o : Operand}
    (hw : Operand.IsWritten text o) (hf : form.Admits o) : IsRead labels form text o := by
  cases hf with
  | register r =>
    obtain rfl : text = r.name := hw
    exact .register (register_eq_ok_iff.mpr r.ofName?_name)
  | copy r =>
    obtain rfl : text = r.name := hw
    exact .copy (number_eq_ok_none_iff.mpr r.numeral?_name) (register_eq_ok_iff.mpr r.ofName?_name)
  | immediate hn => exact .immediate (number_eq_ok_some_iff.mpr ⟨hw, hn⟩)
  | @address n hn =>
    have small : n < UInt16.size := Nat.lt_of_le_of_lt hn (by decide)
    refine isRead_address_iff.mpr ⟨.ofNat n, address_eq_ok_iff.mpr ⟨n, .inl hw, hn, rfl⟩, ?_⟩
    exact (UInt16.toNat_ofNat_of_lt' small).symm

theorem areRead_of_isWritten {texts : List String} {os : List Operand} {forms : List OperandForm}
    (hw : List.Forall₂ Operand.IsWritten texts os) (hf : List.Forall₂ OperandForm.Admits forms os) :
    AreRead labels forms texts os := by
  induction hw generalizing forms with
  | nil =>
    cases hf
    exact .nil
  | cons h _ ih =>
    cases hf with
    | cons admits rest => exact .cons (isRead_of_isWritten h admits) (ih rest)

theorem byte_of_isWritten {text : String} {b : UInt8}
    (h : Operand.IsWritten text (.number b.toNat)) : byte text = .ok b :=
  byte_eq_ok_iff.mpr ⟨b.toNat, h, Nat.le_of_lt_succ b.toNat_lt, UInt8.ofNat_toNat.symm⟩

end

/-! ### Items -/

namespace Item

/-- The address of the item, if it has one, is within the memory. -/
def Fits : Item → Prop
  | .instruction i => ∀ a, i.address? = some a → a.toNat ≤ addressMax.toNat
  | .data _ => True

/-- The line writes the item: its operation, and after a space its operands with commas between them.
Spaces may follow. -/
def IsLine (line : String) (item : Item) : Prop :=
  ∃ args n, List.Forall₂ Operand.Spells args item.operands ∧
    line.toList = Statement.render ⟨item.op, args⟩ ++ List.replicate n ' '

variable {item : Item} {t : Statement}

theorem exists_isLine (item : Item) : ∃ line, IsLine line item := by
  have spelled (o : Operand) : ∃ text, Operand.Spells text o := by
    obtain ⟨text, h⟩ := o.exists_isWritten
    exact ⟨text, Operand.spells_iff_isWritten.mpr h⟩
  obtain ⟨args, h⟩ := exists_forall₂ spelled item.operands
  exact ⟨String.ofList (Statement.render ⟨item.op, args⟩), args, 0, h, by simp⟩

theorem IsLine.isWritten {line : String} (h : IsLine line item) :
    ∃ t n, IsWritten t item ∧ line.toList = Statement.render t ++ List.replicate n ' ' := by
  obtain ⟨args, n, spelled, hline⟩ := h
  exact ⟨⟨item.op, args⟩, n, ⟨rfl, Operand.areWritten_iff_spells.mpr spelled⟩, hline⟩

theorem op_solid (item : Item) :
    item.op.toList ≠ [] ∧ ∀ c ∈ item.op.toList, isBlank c = false ∧ c ≠ ';' := by
  cases item with
  | instruction i => exact ⟨(isOperation_name i.mnemonic).ne_nil, (isOperation_name i.mnemonic).solid⟩
  | data bs =>
    rw [op, String.toList_ofList]
    refine ⟨by decide, fun c hc => ⟨isBlank_of_mem_dataDirective hc, ?_⟩⟩
    rintro rfl
    exact absurd hc (by decide)

theorem IsWritten.isNormal (h : IsWritten t item) : t.IsNormal := by
  obtain ⟨hop, hargs⟩ := h
  obtain ⟨hne, solid⟩ := item.op_solid
  rw [← hop] at hne solid
  refine ⟨solid, fun hnil => absurd (String.toList_eq_nil_iff.mpr hnil) hne, ?_⟩
  replace hargs := Operand.areWritten_iff_forall₂.mp hargs
  generalize t.args = args at hargs
  generalize item.operands = os at hargs
  induction hargs with
  | nil => simp
  | cons h _ ih => exact List.forall_mem_cons.mpr ⟨h.isArgument, ih⟩

/-- **A written item is encoded** as its bytes. -/
theorem IsWritten.encode_eq {labels : Labels} (h : IsWritten t item) (fits : item.Fits) :
    encode labels t = .ok item.bytes := by
  obtain ⟨hop, hargs⟩ := h
  replace hargs := Operand.areWritten_iff_forall₂.mp hargs
  cases item with
  | instruction i =>
    have directive : t.op.toList ≠ dataDirective := hop ▸ (isOperation_name i.mnemonic).ne_directive
    have read : AreRead labels i.mnemonic.signature t.args i.operands :=
      areRead_of_isWritten hargs (Instruction.forall₂_admits fits)
    exact (encode_eq_ok_iff directive).mpr ⟨i, hop.symm, read, rfl⟩
  | data bs =>
    have directive : t.op.toList = dataDirective := by rw [hop, op, String.toList_ofList]
    rw [encode_of_directive directive]
    exact mapM_eq_ok_iff.mpr ((List.forall₂_map_right_iff.mp hargs).imp fun _ _ => byte_of_isWritten)

theorem IsLine.isSolid {line : String} (h : IsLine line item) :
    line.toList ≠ [] ∧ '\n' ∉ line.toList ∧ '\r' ∉ line.toList := by
  obtain ⟨t, n, written, hline⟩ := h.isWritten
  have normal := written.isNormal
  have noBlank {c : Char} (hb : isBlank c = true) (hc : c ≠ ' ') : c ∉ line.toList := by
    rw [hline, List.mem_append]
    rintro (hmem | hmem)
    · exact Statement.not_mem_render normal hb hc hmem
    · exact hc (List.eq_of_mem_replicate hmem)
  refine ⟨?_, noBlank (by decide) (by decide), noBlank (by decide) (by decide)⟩
  rw [hline]
  exact List.append_ne_nil_of_left_ne_nil (Statement.render_ne_nil (written.1 ▸ item.op_solid.1)) _

end Item

/-! ### Lines of code -/

/-- The line is a line of code and stands for the bytes. -/
def EncodesTo (labels : Labels) (raw : List Char) (bytes : List UInt8) : Prop :=
  (LineKind.ofLine raw = .data ∨ LineKind.ofLine raw = .instruction) ∧
    encode labels (Statement.ofLine raw) = .ok bytes

theorem Item.IsLine.encodesTo {labels : Labels} {line : String} {item : Item} (h : item.IsLine line)
    (fits : item.Fits) : EncodesTo labels line.toList item.bytes := by
  obtain ⟨t, n, written, hline⟩ := h.isWritten
  have read : Statement.ofLine line.toList = t := by
    have spaces : AllBlank (List.replicate n ' ') := by
      intro c hc
      obtain rfl := List.eq_of_mem_replicate hc
      decide
    rw [hline, ← Statement.ofLine_trim, trim_append_right spaces, Statement.ofLine_trim,
      Statement.ofLine_render written.isNormal]
  have encoded : encode labels (Statement.ofLine line.toList) = .ok item.bytes := by
    rw [read]
    exact written.encode_eq fits
  refine ⟨?_, encoded⟩
  cases item with
  | instruction i =>
    right
    refine kind_of_isOperation ?_
    rw [read, written.1]
    exact isOperation_name i.mnemonic
  | data bs =>
    left
    refine kind_of_directive ?_ encoded
    rw [read, written.1]
    exact String.toList_ofList ..

theorem PlacedLine.definition?_of_holdsCode {p : PlacedLine} (h : p.holdsCode = true) :
    p.definition? = none := by
  rcases holdsCode_iff.mp h with hk | hk
  · rw [definition?, hk]
  · rw [definition?, hk]

theorem forall₂_encodeLine_place {labels : Labels} {raws : List (List Char)} {bss : List (List UInt8)}
    (h : List.Forall₂ (EncodesTo labels) raws bss) (line address : Nat) :
    List.Forall₂ (fun p bytes => p.holdsCode = true ∧ encodeLine labels p = .ok bytes)
      (place line address raws) bss := by
  induction h generalizing line address with
  | nil => exact .nil
  | cons h _ ih =>
    refine .cons ⟨?_, ?_⟩ (ih _ _)
    · rw [PlacedLine.holdsCode_iff, PlacedLine.kind_of_text rfl]
      exact h.1
    · rw [encodeLine_eq_ok_iff, PlacedLine.statement_of_text rfl]
      exact h.2

theorem assemble_of_encodesTo {source : String} {bss : List (List UInt8)}
    (h : List.Forall₂ (EncodesTo []) (lines source.toList) bss) :
    assemble source =
      .ok ⟨Image.ofPayload bss.flatten, SourceMap.ofPlaced (placedLines source), []⟩ := by
  obtain ⟨holdsCode, encoded⟩ := (List.forall₂_and_left _ _).mp (forall₂_encodeLine_place h 0 0)
  have none : (placedLines source).filterMap PlacedLine.definition? = [] :=
    List.filterMap_eq_nil_iff.mpr fun p hp => PlacedLine.definition?_of_holdsCode (holdsCode p hp)
  have all : (placedLines source).filter PlacedLine.holdsCode = placedLines source :=
    List.filter_eq_self.mpr holdsCode
  have layout : Layout.ofSource source = .ok ⟨[], placedLines source⟩ := by
    refine Layout.ofSource_eq_ok_iff.mpr ⟨?_, by rw [none, all]⟩
    rw [redefinition?_eq_none_iff, none]
    simp
  exact assemble_eq_ok_iff.mpr ⟨_, bss, layout, mapM_eq_ok_iff.mpr encoded, rfl⟩

/-! ### Programs -/

theorem assemble_of_isLine {source : String} {texts : List String} {items : List Item}
    (hs : lines source.toList = texts.map String.toList)
    (fits : ∀ item ∈ items, item.Fits) (h : List.Forall₂ (fun text item => item.IsLine text) texts items) :
    assemble source = .ok ⟨Image.ofPayload (items.flatMap Item.bytes),
      SourceMap.ofPlaced (placedLines source), []⟩ := by
  have encodes : List.Forall₂ (EncodesTo []) (lines source.toList) (items.map Item.bytes) := by
    rw [hs, List.forall₂_map_left_iff, List.forall₂_map_right_iff]
    clear hs
    induction h with
    | nil => exact .nil
    | cons hline _ ih =>
      rw [List.forall_mem_cons] at fits
      exact .cons (hline.encodesTo fits.1) (ih fits.2)
  rw [assemble_of_encodesTo encodes, List.flatMap_def]

theorem lines_of_isLine {texts : List String} {items : List Item}
    (h : List.Forall₂ (fun text item => item.IsLine text) texts items) :
    lines ("\n".intercalate texts).toList = texts.map String.toList := by
  have solid : ∀ text ∈ texts, text.toList ≠ [] ∧ '\n' ∉ text.toList ∧ '\r' ∉ text.toList := by
    induction h with
    | nil => simp
    | cons hline _ ih => exact List.forall_mem_cons.mpr ⟨hline.isSolid, ih⟩
  rw [String.toList_intercalate]
  exact lines_intercalate (List.forall_mem_map.mpr solid)

/-- **Every program has a source text** without labels: whatever lines write its items one by one, and
there are such lines, they assemble to the bytes of the items. -/
theorem assemble_of_items {items : List Item} (fits : ∀ item ∈ items, item.Fits) :
    (∃ texts, List.Forall₂ (fun text item => item.IsLine text) texts items) ∧
      ∀ texts, List.Forall₂ (fun text item => item.IsLine text) texts items →
        ∃ program, program.labels = [] ∧ program.image = Image.tag ++ items.flatMap Item.bytes ∧
          assemble ("\n".intercalate texts) = .ok program ∧
          ∀ source, lines source.toList = texts.map String.toList → assemble source = .ok program := by
  refine ⟨exists_forall₂ Item.exists_isLine items, fun texts h => ?_⟩
  have hlines := lines_of_isLine h
  refine ⟨_, rfl, rfl, assemble_of_isLine hlines fits h, fun source hs => ?_⟩
  have same : placedLines source = placedLines ("\n".intercalate texts) := by
    rw [placedLines, placedLines, hs, hlines]
  rw [assemble_of_isLine hs fits h, same]

/-- Two instructions and two bytes, with numbers in both bases. -/
theorem assemble_of_items_three :
    ∃ program, assemble "SETT r3, 0x0A\nHOPP 4095\n.DATA 007, 0xff " = .ok program ∧
      program.labels = [] ∧ program.image = Image.tag ++ [0x31, 0x0A, 0xF8, 0xFF, 0x07, 0xFF] := by
  have fits : ∀ item ∈ [Item.instruction (.setImmediate 3 10), .instruction (.jump 0xFFF),
      .data [7, 0xFF]], item.Fits := by
    simp [Item.Fits, Instruction.address?, addressMax]
  have number (text : String) {n : Nat} (h : numeral? text.toList = some n) :
      Operand.Spells text (.number n) := Operand.spells_iff_isWritten.mpr h
  have register : Operand.Spells "r3" (.register 3) :=
    Operand.spells_iff_isWritten.mpr (by decide +kernel : "r3" = Register.name 3)
  have set : Item.IsLine "SETT r3, 0x0A" (.instruction (.setImmediate 3 10)) :=
    ⟨["r3", "0x0A"], 0, .cons register (.cons (number "0x0A" (by decide +kernel)) .nil),
      by decide +kernel⟩
  have jump : Item.IsLine "HOPP 4095" (.instruction (.jump 0xFFF)) :=
    ⟨["4095"], 0, .cons (number "4095" (by decide +kernel)) .nil, by decide +kernel⟩
  have data : Item.IsLine ".DATA 007, 0xff " (.data [7, 0xFF]) :=
    ⟨["007", "0xff"], 1, .cons (number "007" (by decide +kernel))
      (.cons (number "0xff" (by decide +kernel)) .nil), by decide +kernel⟩
  obtain ⟨program, labels, image, h, -⟩ :=
    (assemble_of_items fits).2 _ (.cons set (.cons jump (.cons data .nil)))
  exact ⟨program, h, labels, image⟩

end Source

end ByteMachine
