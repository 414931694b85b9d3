import ByteMachine.Proofs.Machine.StraightLine
import ByteMachine.Proofs.Source.Capacity
import ByteMachine.Proofs.Source.Decoding

/-!
# Texts that are carried out line by line

A text whose lines of code are instructions in a line is a straight-line program: the run of its image takes
one cycle for each line of code, in the order of the text, and one more for the halt behind the last line.

* `statements`: the lines of code of a text, whatever stands between them;
* `exists_instructions`: the instructions that the lines are read as, and the memory that holds their words;
* `assemble_nops`: a text of lines that do nothing;
* `execute_of_straight`: the outcome of the text on every budget.
-/

namespace ByteMachine.Source

open Text

/-! ### Lines of code -/

/-- The line holds data or an instruction. -/
def isCode (raw : List Char) : Bool := LineKind.ofLine raw = .data ∨ LineKind.ofLine raw = .instruction

/-- The statements of the lines of code, in the order of the text. -/
def statements (source : String) : List Statement :=
  ((lines source.toList).filter isCode).map Statement.ofLine

theorem map_statement_place (line address : Nat) (raws : List (List Char)) :
    ((place line address raws).filter PlacedLine.holdsCode).map PlacedLine.statement =
      (raws.filter isCode).map Statement.ofLine := by
  induction raws generalizing line address with
  | nil => rfl
  | cons raw raws ih =>
    have text : (⟨line, address, String.ofList (trim raw)⟩ : PlacedLine).text = String.ofList (trim raw) :=
      rfl
    have code : PlacedLine.holdsCode ⟨line, address, String.ofList (trim raw)⟩ = isCode raw := by
      rw [Bool.eq_iff_iff, PlacedLine.holdsCode_iff, PlacedLine.kind_of_text text, isCode,
        decide_eq_true_iff]
    rw [place, List.filter_cons, List.filter_cons, code]
    split
    · rw [List.map_cons, List.map_cons, ih, PlacedLine.statement_of_text text]
    · exact ih _ _

theorem map_statement_placed {source : String} {layout : Layout}
    (hl : Layout.ofSource source = .ok layout) :
    layout.placed.map PlacedLine.statement = statements source := by
  obtain ⟨-, rfl⟩ := Layout.ofSource_eq_ok_iff.mp hl
  exact map_statement_place 0 0 _

/-- The statement is read as the instruction: its word is the name of the instruction, and its arguments are
the operands. -/
def Statement.IsReadAs (labels : Labels) (t : Statement) (i : Instruction) : Prop :=
  i.mnemonic.name = t.op ∧ AreRead labels i.mnemonic.signature t.args i.operands

/-! ### Words of instructions in a line -/

/-- The words of the instructions that neither write to the memory nor leave the line. -/
def straightWords : List String :=
  ["SETT", "FINN", "LAST", "LES", "SKRIV", "NOPE",
    "OG", "ELLER", "XELLER", "VSKIFT", "HSKIFT", "PLUSS", "MINUS",
    "LIK", "ULIK", "ME", "MEL", "SE", "SEL"]

theorem isStraight_of_mem {i : Instruction} (h : i.mnemonic.name ∈ straightWords) :
    i.isStraight = true := by
  cases i with
  | halt | store source | jump a | jumpIf a | call a | ret =>
    simp [Instruction.mnemonic, Mnemonic.name, straightWords] at h
  | _ => rfl

theorem isRead_iff {i : Instruction} : i.isRead = true ↔ i.mnemonic.name = "LES" := by
  have word : Mnemonic.ofName? "LES" = some .read := by decide
  rw [← Mnemonic.ofName?_eq_some_iff, word]
  cases i <;> simp [Instruction.isRead, Instruction.mnemonic]

theorem ne_directive_of_straight {op : String} (h : op ∈ straightWords) : op.toList ≠ dataDirective := by
  have all : ∀ op ∈ straightWords, op.toList ≠ dataDirective := by decide +kernel
  exact all op h

theorem countP_isRead {labels : Labels} {ts : List Statement} {is : List Instruction}
    (h : List.Forall₂ (Statement.IsReadAs labels) ts is) :
    is.countP Instruction.isRead = ts.countP (·.op = "LES") := by
  induction h with
  | nil => rfl
  | @cons t i ts is h _ ih =>
    have same : i.isRead = decide (t.op = "LES") := by
      rw [Bool.eq_iff_iff, isRead_iff, decide_eq_true_iff, h.1]
    rw [List.countP_cons, List.countP_cons, ih, same]

/-! ### Programs -/

/-- The instructions of a text, whose words stand in memory one behind the other. -/
theorem exists_instructions {source : String} {program : Program} (h : assemble source = .ok program)
    (fits : program.image.length ≤ memorySize) (straight : ∀ t ∈ statements source, t.op ∈ straightWords) :
    ∃ memory is, Image.load program.image = .ok memory ∧
      List.Forall₂ (Statement.IsReadAs program.labels) (statements source) is ∧
      (State.ofMemory memory).Holds is := by
  obtain ⟨layout, parts, hl, hp, rfl⟩ := assemble_eq_ok_iff_emits.mp h
  have origins : parts.map (·.origin.statement) = statements source := by
    rw [← map_statement_placed hl, ← hp.origins, List.map_map]
    rfl
  rw [← origins, List.forall_mem_map] at straight
  have each : ∀ part ∈ parts, ∃ i : Instruction, part.origin.statement.IsReadAs layout.labels i ∧
      part.bytes = i.toBytes := by
    intro part hpart
    obtain ⟨i, hname, read, bytes⟩ :=
      (encode_eq_ok_iff (ne_directive_of_straight (straight part hpart))).mp (hp.encoded part hpart)
    exact ⟨i, ⟨hname, read⟩, bytes⟩
  obtain ⟨is, both⟩ := exists_forall₂_iff.mpr each
  have read : List.Forall₂ (Statement.IsReadAs layout.labels) (statements source) is := by
    rw [← origins, List.forall₂_map_left_iff]
    exact both.imp fun _ _ h => h.1
  have bytes : emitted parts = is.flatMap Instruction.toBytes := by
    have same : parts.map Part.bytes = is.map Instruction.toBytes := by
      rw [← List.forall₂_eq_eq_eq, List.forall₂_map_left_iff, List.forall₂_map_right_iff]
      exact both.imp fun _ _ h => h.2
    rw [emitted, List.flatMap_def, List.flatMap_def, same]
  refine ⟨_, is, Image.load_eq_ok fits, read, ?_⟩
  rw [bytes] at fits ⊢
  refine ⟨rfl, ?_, ?_⟩
  · rw [Image.ofPayload, List.length_append, State.length_flatMap_toBytes] at fits
    exact Nat.lt_of_lt_of_le (Nat.lt_add_of_pos_left (by decide)) fits
  · intro i hi
    obtain ⟨t, -, -, h⟩ := exists_mem_of_forall₂ read hi
    exact Instruction.ofWord?_toWord_of_le fun a ha => address_le_of_areRead h ha

theorem assemble_nops {source : String} {n : Nat}
    (h : lines source.toList = List.replicate n "NOPE".toList) :
    statements source = List.replicate n ⟨"NOPE", []⟩ ∧
      ∃ program, assemble source = .ok program ∧ program.image.length = 7 + 2 * n := by
  have code : isCode "NOPE".toList = true := by decide +kernel
  have read : Statement.ofLine "NOPE".toList = ⟨"NOPE", []⟩ := by decide +kernel
  have line : Item.IsLine "NOPE" (.instruction .nop) := ⟨[], 0, .nil, by decide +kernel⟩
  have fits : ∀ item ∈ List.replicate n (Item.instruction .nop), item.Fits := by
    simp [Item.Fits, Instruction.address?]
  have all : List.Forall₂ (fun text item => Item.IsLine text item) (List.replicate n "NOPE")
      (List.replicate n (.instruction .nop)) := by
    clear h fits
    induction n with
    | zero => exact .nil
    | succ n ih => exact .cons line ih
  constructor
  · rw [statements, h, List.filter_replicate_of_pos code, List.map_replicate, read]
  · refine ⟨_, assemble_of_isLine (h.trans (List.map_replicate ..).symm) fits all, ?_⟩
    have bytes : (List.replicate n (Item.instruction .nop)).flatMap Item.bytes =
        (List.replicate n Instruction.nop).flatMap Instruction.toBytes := by
      simp only [List.flatMap_replicate, Item.bytes]
    rw [Image.ofPayload, bytes, List.length_append, State.length_flatMap_toBytes, List.length_replicate]
    rfl

/-! ### Runs -/

/-- The state in which a text of instructions in a line ends. -/
structure IsFinal (source : String) (memory : Memory) (input : Array UInt8) (is : List Instruction)
    (t : State) : Prop where
  ticks_eq : t.ticks.toNat = (statements source).length + 1
  pc_eq : t.pc.toNat = 2 * (statements source).length + 2
  memory_eq : t.memory = memory
  calls_eq : t.calls = #[]
  cursor_eq : t.cursor = (statements source).countP (·.op = "LES")
  registers_eq : t.registers = ((State.ofMemory memory).performAll input is).registers
  flag_eq : t.flag = ((State.ofMemory memory).performAll input is).flag
  output_eq : t.output = ((State.ofMemory memory).performAll input is).output

/-- The run of a text of instructions in a line, on every budget. -/
structure RunsThrough (source : String) (program : Program) (input : Array UInt8) (memory : Memory)
    (is : List Instruction) : Prop where
  load_eq : Image.load program.image = .ok memory
  /-- The instructions are those of the lines of code, one by one. -/
  read : List.Forall₂ (Statement.IsReadAs program.labels) (statements source) is
  ends : ∀ budget : UInt64, (statements source).length + 1 ≤ budget.toNat →
    ∃ t, execute program.image input budget = .ok t ∧ IsFinal source memory input is t
  exhausted : ∀ budget : UInt64, budget.toNat ≤ (statements source).length →
    execute program.image input budget = .error (.fault (.ticksExhausted budget))

theorem exists_runsThrough {source : String} {program : Program} {input : Array UInt8}
    (h : assemble source = .ok program) (fits : program.image.length ≤ memorySize)
    (straight : ∀ t ∈ statements source, t.op ∈ straightWords)
    (reads : (statements source).countP (·.op = "LES") ≤ input.size) :
    ∃ memory is, RunsThrough source program input memory is := by
  obtain ⟨memory, is, load, read, holds⟩ := exists_instructions h fits straight
  have length := read.length_eq
  have small := holds.fits
  have straight : ∀ i ∈ is, i.isStraight = true := by
    intro i hi
    obtain ⟨t, ht, hname, -⟩ := exists_mem_of_forall₂ read hi
    exact isStraight_of_mem (hname ▸ straight t ht)
  rw [← countP_isRead read] at reads
  have outcome := Run.execute_of_isStraight load holds straight reads
  have kept := State.keeps_performAll (State.ofMemory memory) input straight
  refine ⟨memory, is, load, read, fun budget enough => ?_, fun budget short => ?_⟩
  · rw [length] at enough
    refine ⟨_, (outcome budget).1 enough, ?_, ?_, kept.memory_eq, kept.calls_eq, ?_, rfl, rfl, rfl⟩
    · rw [length]
      exact UInt64.toNat_ofNat_of_lt' (Nat.lt_of_le_of_lt (m := memorySize) (by omega) (by decide))
    · rw [length]
      exact UInt16.toNat_ofNat_of_lt' (Nat.lt_of_le_of_lt (m := memorySize + 1) (by omega) (by decide))
    · rw [← countP_isRead read]
      exact kept.cursor_eq.trans (Nat.zero_add _)
  · rw [length] at short
    exact (outcome budget).2 short

/-- **A text of instructions in a line is carried out line by line**: with a byte of input for each read and
a budget of more cycles than lines it ends with the effects of the lines in their order, and on every smaller
budget it does not end. So do `n` lines that do nothing, which take `n + 1` cycles. -/
theorem execute_of_straight :
    (∀ (source : String) (program : Program) (input : Array UInt8), assemble source = .ok program →
      program.image.length ≤ memorySize → (∀ t ∈ statements source, t.op ∈ straightWords) →
      (statements source).countP (·.op = "LES") ≤ input.size →
      ∃ memory is, RunsThrough source program input memory is) ∧
    ∀ (n : Nat) (source : String), lines source.toList = List.replicate n "NOPE".toList →
      ∃ program, assemble source = .ok program ∧ program.image.length = 7 + 2 * n ∧
        (program.image.length ≤ memorySize → ∀ (input : Array UInt8) (budget : UInt64),
          (n + 1 ≤ budget.toNat → ∃ t, execute program.image input budget = .ok t ∧
            t.ticks.toNat = n + 1) ∧
          (budget.toNat ≤ n →
            execute program.image input budget = .error (.fault (.ticksExhausted budget)))) := by
  refine ⟨fun source program input => exists_runsThrough, fun n source h => ?_⟩
  obtain ⟨nops, program, ok, length⟩ := assemble_nops h
  refine ⟨program, ok, length, fun fits input budget => ?_⟩
  have count : (statements source).length = n := by rw [nops, List.length_replicate]
  have straight : ∀ t ∈ statements source, t.op ∈ straightWords := by
    rw [nops]
    intro t ht
    rw [List.eq_of_mem_replicate ht]
    decide
  have reads : (statements source).countP (·.op = "LES") ≤ input.size := by
    rw [nops, List.countP_replicate]
    exact Nat.zero_le _
  obtain ⟨memory, is, runs⟩ := exists_runsThrough ok fits straight reads
  constructor
  · intro enough
    obtain ⟨t, ht, final⟩ := runs.ends budget (by rwa [count])
    exact ⟨t, ht, by rw [final.ticks_eq, count]⟩
  · intro short
    exact runs.exhausted budget (by rwa [count])

theorem Statement.IsReadAs.eq {labels : Labels} {t : Statement} {i j : Instruction}
    (h : t.IsReadAs labels i) (hm : Mnemonic.ofName? t.op = some j.mnemonic)
    (hj : instruction labels j.mnemonic t.args = .ok j) : i = j := by
  obtain ⟨name, read⟩ := h
  have same : i.mnemonic = j.mnemonic := by
    rw [← name, Mnemonic.ofName?_name] at hm
    exact Option.some.inj hm
  rw [← same, instruction_eq_ok_iff.mpr ⟨rfl, read⟩] at hj
  exact Except.ok.inj hj

/-- A text that reads a byte, adds to it, compares the sum and writes it. -/
def adding : String := "LES r2\nSETT r3, 7\nPLUSS r2, r3\nME r3, r2\nSKRIV r2"

/-- The five lines of `adding` take six cycles, also on the largest budget; and three lines that do nothing take
four. -/
theorem execute_of_straight_five :
    (∃ program t, assemble adding = .ok program ∧
      execute program.image #[5] 0xFFFFFFFFFFFFFFFF = .ok t ∧ t.ticks.toNat = 6 ∧ t.pc.toNat = 12 ∧
      t.cursor = 1 ∧ t.output = #[12] ∧ t.flag = true ∧
      t.registers = #v[0, 0, 12, 7, 0, 0, 0, 0, 0, 0, 0, 0, 0, 0, 0, 0]) ∧
    ∃ program, assemble "NOPE\nNOPE\nNOPE" = .ok program ∧ program.image.length = 13 ∧
      (∃ t, execute program.image #[] 4 = .ok t ∧ t.ticks.toNat = 4) ∧
      execute program.image #[] 3 = .error (.fault (.ticksExhausted 3)) := by
  constructor
  · have h : assemble adding =
        .ok ⟨Image.tag ++ [0x06, 0x02, 0x31, 0x07, 0x55, 0x32, 0x27, 0x23, 0x16, 0x02],
          [(0, ⟨0, 0, "LES r2"⟩), (2, ⟨1, 2, "SETT r3, 7"⟩), (4, ⟨2, 4, "PLUSS r2, r3"⟩),
            (6, ⟨3, 6, "ME r3, r2"⟩), (8, ⟨4, 8, "SKRIV r2"⟩)], []⟩ := by
      decide +kernel
    have code : statements adding = [⟨"LES", ["r2"]⟩, ⟨"SETT", ["r3", "7"]⟩, ⟨"PLUSS", ["r2", "r3"]⟩,
        ⟨"ME", ["r3", "r2"]⟩, ⟨"SKRIV", ["r2"]⟩] := by
      decide +kernel
    obtain ⟨memory, is, runs⟩ := execute_of_straight.1 _ _ #[5] h (by decide) (by rw [code]; decide)
      (by rw [code]; decide)
    have read := runs.read
    simp only [code, List.forall₂_cons_left_iff, List.forall₂_nil_left_iff] at read
    obtain ⟨_, _, h1, ⟨_, _, h2, ⟨_, _, h3, ⟨_, _, h4, ⟨_, _, h5, rfl, rfl⟩, rfl⟩, rfl⟩, rfl⟩, rfl⟩ := read
    obtain rfl := h1.eq (j := .read 2) (by decide +kernel) (by decide +kernel)
    obtain rfl := h2.eq (j := .setImmediate 3 7) (by decide +kernel) (by decide +kernel)
    obtain rfl := h3.eq (j := .arithmetic .add 2 3) (by decide +kernel) (by decide +kernel)
    obtain rfl := h4.eq (j := .compare .less 3 2) (by decide +kernel) (by decide +kernel)
    obtain rfl := h5.eq (j := .write 2) (by decide +kernel) (by decide +kernel)
    obtain ⟨t, ht, final⟩ := runs.ends 0xFFFFFFFFFFFFFFFF (by rw [code]; decide)
    refine ⟨_, t, h, ht, ?_, ?_, ?_, final.output_eq, final.flag_eq, final.registers_eq⟩
    · rw [final.ticks_eq, code]
      rfl
    · rw [final.pc_eq, code]
      rfl
    · rw [final.cursor_eq, code]
      decide
  · have nops : lines "NOPE\nNOPE\nNOPE".toList = List.replicate 3 "NOPE".toList := by decide +kernel
    obtain ⟨program, ok, length, runs⟩ := execute_of_straight.2 3 _ nops
    have fits : program.image.length ≤ memorySize := by
      rw [length]
      decide
    exact ⟨program, ok, length, (runs fits #[] 4).1 (by decide), (runs fits #[] 3).2 (by decide)⟩

end ByteMachine.Source
