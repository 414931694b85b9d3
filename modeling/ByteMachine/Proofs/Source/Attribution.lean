import ByteMachine.Machine.State
import ByteMachine.Monitor.Trace
import ByteMachine.Proofs.Source.Decoding
import ByteMachine.Proofs.Source.Entries
import ByteMachine.Proofs.Source.Parts

/-!
# Bytes and their lines

The source map of a program says of each byte in memory from which line it comes: the entry with the
greatest key up to the address of a byte is the line that the byte was emitted for. Lines without bytes,
which the map may have lost, do not matter for this, since the byte is behind them.

* `IsContiguous.isLastUpTo_iff`: of lines that lie one behind the other, the one with a byte is found.
* `getElem?_emitted_iff`: each byte is emitted by a part of the program. `exists_fetched`: the bytes of an
  instruction line are fetched at its address.
* `attribution_of_assemble`: all bytes of a program, once it is loaded, and all its instructions.
-/

namespace ByteMachine

namespace Source

open Text

/-! ### The line of an address -/

/-- The entry is the one with the greatest key up to an offset. -/
def SourceMap.IsLastUpTo (m : SourceMap) (offset : Nat) (e : Nat × PlacedLine) : Prop :=
  e ∈ m ∧ e.1 ≤ offset ∧ ∀ f ∈ m, f.1 ≤ offset → f.1 ≤ e.1

theorem SourceMap.IsLastUpTo.unique {m : SourceMap} (hm : m.Sorted) {offset : Nat}
    {e f : Nat × PlacedLine} (he : m.IsLastUpTo offset e) (hf : m.IsLastUpTo offset f) : e = f := by
  obtain ⟨he, hle, hlast⟩ := he
  obtain ⟨hf, hle', hlast'⟩ := hf
  have same : e.1 = f.1 := Nat.le_antisymm (hlast' e he hle) (hlast f hf hle')
  have p := hm.find?_eq_some_iff.mpr he
  have q := hm.find?_eq_some_iff.mpr hf
  rw [same, q, Option.some.injEq] at p
  exact Prod.ext same p.symm

namespace IsContiguous

variable {address : Nat} {ps : List PlacedLine}

theorem le_address (h : IsContiguous address ps) : ∀ p ∈ ps, address ≤ p.address := by
  induction ps generalizing address with
  | nil => simp
  | cons p ps ih =>
    obtain ⟨ha, h⟩ := h
    intro q hq
    rcases List.mem_cons.mp hq with rfl | hq
    · omega
    · have := ih h q hq
      omega

theorem pairwise (h : IsContiguous address ps) :
    ps.Pairwise fun p q => p.address + p.size ≤ q.address := by
  induction ps generalizing address with
  | nil => exact List.Pairwise.nil
  | cons p ps ih =>
    obtain ⟨ha, h⟩ := h
    refine List.Pairwise.cons (fun q hq => ?_) (ih h)
    rw [ha]
    exact h.le_address q hq

/-- The line with a byte is the last one of the map that starts up to the byte. -/
theorem isLastUpTo_iff (h : IsContiguous address ps) {p : PlacedLine} (hp : p ∈ ps) {k : Nat}
    (hk : p.address ≤ k) (hk' : k < p.address + p.size) {e : Nat × PlacedLine} :
    (SourceMap.ofPlaced ps).IsLastUpTo k e ↔ e = (p.address, p) := by
  have sized : p.size ≠ 0 := by omega
  have last : (SourceMap.ofPlaced ps).IsLastUpTo k (p.address, p) := by
    refine ⟨(mem_ofPlaced_iff h).mpr ⟨mem_kept_iff.mpr ⟨hp, .inl sized⟩, rfl⟩, hk, ?_⟩
    rintro ⟨a, q⟩ entry hle
    obtain ⟨remains, rfl⟩ := (mem_ofPlaced_iff h).mp entry
    have hq : q ∈ ps := (mem_kept_iff.mp remains).1
    obtain ⟨before, after, rfl⟩ := List.append_of_mem hp
    obtain ⟨-, behind, earlier⟩ := List.pairwise_append.mp h.pairwise
    rcases List.mem_append.mp hq with hq | hq
    · have := earlier q hq p List.mem_cons_self
      dsimp only
      omega
    · rcases List.mem_cons.mp hq with rfl | hq
      · exact Nat.le_refl _
      · have := (List.pairwise_cons.mp behind).1 q hq
        dsimp only at hle
        omega
  have sorted : (SourceMap.ofPlaced ps).Sorted := SourceMap.sorted_ofPairs _
  constructor
  · intro he
    exact he.unique sorted last
  · rintro rfl
    exact last

end IsContiguous

/-! ### The part of a byte -/

/-- The byte at an offset of all bytes is a byte of the part. -/
def EmitsAt (parts : List Part) (offset : Nat) (part : Part) (b : UInt8) : Prop :=
  ∃ before after, parts = before ++ part :: after ∧ (emitted before).length ≤ offset ∧
    part.bytes[offset - (emitted before).length]? = some b

theorem exists_emitsAt {parts : List Part} {k : Nat} (h : k < (emitted parts).length) :
    ∃ part b, EmitsAt parts k part b := by
  induction parts generalizing k with
  | nil => exact absurd h (Nat.not_lt_zero k)
  | cons part parts ih =>
    rw [emitted_cons, List.length_append] at h
    by_cases hk : k < part.bytes.length
    · exact ⟨part, part.bytes[k], [], parts, rfl, Nat.zero_le k, List.getElem?_eq_getElem hk⟩
    · obtain ⟨q, b, before, after, rfl, hle, hb⟩ := ih (k := k - part.bytes.length) (by omega)
      have start : (emitted (part :: before)).length =
          part.bytes.length + (emitted before).length := by
        rw [emitted_cons, List.length_append]
      refine ⟨q, b, part :: before, after, rfl, by omega, ?_⟩
      rw [start, ← Nat.sub_sub]
      exact hb

theorem EmitsAt.getElem? {parts : List Part} {k : Nat} {part : Part} {b : UInt8}
    (h : EmitsAt parts k part b) : (emitted parts)[k]? = some b := by
  obtain ⟨before, after, rfl, hle, hb⟩ := h
  obtain ⟨inside, -⟩ := List.getElem?_eq_some_iff.mp hb
  rw [emitted_append, emitted_cons, List.getElem?_append_right hle, List.getElem?_append_left inside,
    hb]

theorem getElem?_emitted_iff {parts : List Part} {k : Nat} {b : UInt8} :
    (emitted parts)[k]? = some b ↔ ∃ part, EmitsAt parts k part b := by
  constructor
  · intro hb
    obtain ⟨inside, -⟩ := List.getElem?_eq_some_iff.mp hb
    obtain ⟨part, c, hc⟩ := exists_emitsAt inside
    obtain rfl := Option.some.inj (hc.getElem?.symm.trans hb)
    exact ⟨part, hc⟩
  · rintro ⟨part, hb⟩
    exact hb.getElem?

section
variable {source : String} {layout : Layout} {parts : List Part} {part : Part}
  (hl : Layout.ofSource source = .ok layout) (hp : layout.Emits parts)
include hl hp

theorem EmitsAt.address_le {k : Nat} {b : UInt8} (h : EmitsAt parts k part b) :
    part ∈ parts ∧ part.origin.address ≤ k ∧ k < part.origin.address + part.origin.size := by
  obtain ⟨before, after, rfl, hle, hb⟩ := h
  have hpart : part ∈ before ++ part :: after := List.mem_append_right _ List.mem_cons_self
  obtain ⟨inside, -⟩ := List.getElem?_eq_some_iff.mp hb
  rw [length_bytes hl hp hpart] at inside
  have start := address_eq hl hp
  refine ⟨hpart, ?_, ?_⟩ <;> omega

theorem emitsAt_address {j : Nat} (hpart : part ∈ parts) {b : UInt8} (hb : part.bytes[j]? = some b) :
    EmitsAt parts (part.origin.address + j) part b := by
  obtain ⟨before, after, rfl⟩ := List.append_of_mem hpart
  have start := address_eq hl hp
  refine ⟨before, after, rfl, by omega, ?_⟩
  rwa [start, Nat.add_sub_cancel_left]

theorem exists_instruction (hpart : part ∈ parts) (hkind : part.origin.kind = .instruction) :
    ∃ low high i, part.bytes = [low, high] ∧
      Instruction.ofWord? (Word.ofBytes low high) = some i ∧
        i.mnemonic.name = part.origin.statement.op := by
  have encoded := hp.encoded part hpart
  rcases bytes_cases hl hp hpart with ⟨-, directive, -⟩ | ⟨hdata, -, -⟩
  · obtain ⟨i, name, read, bytes⟩ := (encode_eq_ok_iff directive).mp encoded
    refine ⟨i.toWord.toUInt8, (i.toWord >>> 8).toUInt8, i, ?_, ?_, name⟩
    · rw [bytes, Instruction.toBytes_eq]
    · rw [Word.ofBytes_toBytes]
      exact Instruction.ofWord?_toWord_of_le fun a ha => address_le_of_areRead read ha
  · rw [hdata] at hkind
    cases hkind

/-- The bytes of an instruction line lie within all bytes, and in a memory that starts with these it is the
line's own instruction that is fetched at its address. -/
theorem exists_fetched (room : (emitted parts).length ≤ memorySize) (hpart : part ∈ parts)
    (hkind : part.origin.kind = .instruction) :
    part.origin.address + 2 ≤ (emitted parts).length ∧
      ∃ i : Instruction, i.mnemonic.name = part.origin.statement.op ∧
        ∀ s : State, s.memory = Image.memoryOf (emitted parts) → s.pc.toNat = part.origin.address →
          Instruction.ofWord? s.fetch = some i ∧ Trace.disassembly s.fetch = i.disassemble := by
  obtain ⟨low, high, i, bytes, decoded, name⟩ := exists_instruction hl hp hpart hkind
  have first : EmitsAt parts part.origin.address part low :=
    emitsAt_address hl hp hpart (j := 0) (by rw [bytes]; rfl)
  have second : EmitsAt parts (part.origin.address + 1) part high :=
    emitsAt_address hl hp hpart (by rw [bytes]; rfl)
  obtain ⟨inside, -⟩ := List.getElem?_eq_some_iff.mp second.getElem?
  refine ⟨inside, i, name, fun s hs hpc => ?_⟩
  have word : s.fetch = Word.ofBytes low high := by
    refine State.fetch_of_memoryOf hs room ?_ ?_
    · rw [hpc, first.getElem?]
    · rw [hpc, second.getElem?]
  exact ⟨by rw [word, decoded], by rw [Trace.disassembly, word, decoded]⟩

end

/-! ### Attribution -/

/-- Where the bytes and the instructions of a program are found in its source text. -/
structure Attribution (source : String) (program : Program) (memory : Memory) (layout : Layout)
    (parts : List Part) : Prop where
  load_eq : Image.load program.image = .ok memory
  layout_eq : Layout.ofSource source = .ok layout
  emits : layout.Emits parts
  payload_eq : Image.payload program.image = emitted parts
  /-- Each byte of the payload is emitted by a line. -/
  exists_line : ∀ k b, (Image.payload program.image)[k]? = some b ↔ ∃ part, EmitsAt parts k part b
  /-- It is in memory at its offset, and the entry with the greatest key up to there is its line. -/
  line_of_byte : ∀ k part b, EmitsAt parts k part b →
    (State.ofMemory memory).memory[k]? = some b ∧
      ∀ e, program.sourceMap.IsLastUpTo k e ↔ e = (part.origin.address, part.origin)
  /-- An instruction line is the entry at its address. What is fetched there is an instruction of the
  line's own name, and a trace notes the line beside it. -/
  instruction_line : ∀ k raw, (lines source.toList)[k]? = some raw →
    LineKind.ofLine raw = .instruction → ∃ p ∈ layout.placed, ∃ i : Instruction,
      p.line = k ∧ p.text = String.ofList (trim raw) ∧ p.address + 2 ≤ memorySize ∧
        program.sourceMap.find? p.address = some p ∧
          i.mnemonic.name = (Statement.ofLine raw).op ∧
            ∀ s : State, s.memory = memory → s.pc.toNat = p.address →
              Instruction.ofWord? s.fetch = some i ∧ Trace.disassembly s.fetch = i.disassemble ∧
                (Trace.mk (some program.sourceMap)).note s.pc =
                  " " ++ styled [.dim] ("; " ++ decimalPadded 4 (k + 1) ++ ": " ++
                    String.ofList (trim raw))

/-- **Every byte is attributed to its line**, in every program that fits into memory. -/
theorem attribution_of_assemble {source : String} {program : Program}
    (h : assemble source = .ok program) (fits : program.image.length ≤ 4096) :
    ∃ memory layout parts, Attribution source program memory layout parts := by
  obtain ⟨layout, parts, hl, hp, rfl⟩ := assemble_eq_ok_iff_emits.mp h
  have contiguous := isContiguous_placed hl
  have length : (Image.ofPayload (emitted parts)).length = 7 + (emitted parts).length :=
    List.length_append
  have room : (emitted parts).length < memorySize := by
    unfold memorySize
    dsimp only at fits
    omega
  have memory {k : Nat} {part : Part} {b : UInt8} (hb : EmitsAt parts k part b) :
      (Image.memoryOf (emitted parts))[k]? = some b := by
    obtain ⟨inside, -⟩ := List.getElem?_eq_some_iff.mp hb.getElem?
    exact Image.getElem?_memoryOf hb.getElem? (by omega)
  have placed {part : Part} (hpart : part ∈ parts) : part.origin ∈ layout.placed := by
    rw [← hp.origins]
    exact List.mem_map_of_mem hpart
  refine ⟨Image.memoryOf (emitted parts), layout, parts, ?_⟩
  exact
    { load_eq := Image.load_eq_ok fits
      layout_eq := hl
      emits := hp
      payload_eq := Image.payload_ofPayload _
      exists_line := by
        intro k b
        rw [Image.payload_ofPayload]
        exact getElem?_emitted_iff
      line_of_byte := by
        intro k part b hb
        obtain ⟨hpart, hle, hlt⟩ := hb.address_le hl hp
        exact ⟨memory hb, fun e => contiguous.isLastUpTo_iff (placed hpart) hle hlt⟩
      instruction_line := by
        intro k raw hk hkind
        obtain ⟨part, hpart, rfl, encoded⟩ := exists_part hl hp hk hkind
        obtain ⟨raw', hraw', text, -⟩ := exists_raw hl hp hpart
        obtain rfl := Option.some.inj (hraw'.symm.trans hk)
        rw [← PlacedLine.kind_of_text text] at hkind
        rw [← PlacedLine.statement_of_text text, ← text]
        obtain ⟨inside, i, name, fetched⟩ := exists_fetched hl hp room.le hpart hkind
        have sized : part.origin.size ≠ 0 := by simp [PlacedLine.size, hkind]
        have found := (find?_ofPlaced_eq_some_iff contiguous (placed hpart)).mpr (.inl sized)
        refine ⟨part.origin, placed hpart, i, rfl, rfl, by omega, found, name, ?_⟩
        intro s hs hpc
        obtain ⟨decoded, disassembled⟩ := fetched s hs hpc
        exact ⟨decoded, disassembled, by simp [Trace.note, hpc, found]⟩ }

/-- A jump behind a byte and a line without bytes. -/
theorem attribution_of_assemble_odd :
    ∃ program memory layout parts, assemble ".DATA 1\n.DATA\nstart:\nHOPP start" = .ok program ∧
      program.image.length ≤ 4096 ∧
      Attribution ".DATA 1\n.DATA\nstart:\nHOPP start" program memory layout parts ∧
      program.sourceMap.IsLastUpTo 2 (1, ⟨3, 1, "HOPP start"⟩) := by
  have h : assemble ".DATA 1\n.DATA\nstart:\nHOPP start" =
      .ok ⟨Image.tag ++ [0x01, 0x18, 0x00],
        [(0, ⟨0, 0, ".DATA 1"⟩), (1, ⟨3, 1, "HOPP start"⟩)], [("start", 1)]⟩ := by
    decide +kernel
  obtain ⟨memory, layout, parts, attribution⟩ := attribution_of_assemble h (by decide)
  refine ⟨_, memory, layout, parts, h, by decide, attribution, by simp, by decide, ?_⟩
  simp

end Source

end ByteMachine
