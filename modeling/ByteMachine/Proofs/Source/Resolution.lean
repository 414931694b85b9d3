import ByteMachine.Proofs.Instruction.RoundTrip
import ByteMachine.Proofs.Source.AddressLine
import ByteMachine.Proofs.Source.Replacement
import ByteMachine.Source.Item

/-!
# Labels as operands

Where an instruction names a label, before the label's line or behind it, its word holds the number of
bytes emitted before that line, in full, as if this number had been written (`address_resolution`). A
text in the form of a number is no use of a label, whatever labels there are.
-/

namespace ByteMachine.Source

open Text

/-- Line `l` of the text defines the name as a label. -/
def Defines (source name : String) (l : Nat) : Prop :=
  ∃ raw, (lines source.toList)[l]? = some raw ∧ LineKind.ofLine raw = .label name

/-- The number of bytes that are kept free for the lines before line `l`. -/
def lineAddress (source : String) (l : Nat) : Nat :=
  totalSize (place 0 0 ((lines source.toList).take l))

/-- The word at an address of the payload is the instruction. -/
def HoldsInstruction (payload : List UInt8) (address : Nat) (i : Instruction) : Prop :=
  ∃ low high, payload[address]? = some low ∧ payload[address + 1]? = some high ∧
    Instruction.ofWord? (Word.ofBytes low high) = some i

/-- How the operand of line `k`, which takes an address, is resolved in a program. -/
structure Resolution (source : String) (program : Program) (k : Nat) (t : Statement) (layout : Layout)
    (parts : List Part) (part : Part) (operand : String) (i : Instruction) (a : UInt16) : Prop where
  layout_eq : Layout.ofSource source = .ok layout
  emits : layout.Emits parts
  image_eq : program.image = Image.tag ++ emitted parts
  mem : part ∈ parts
  line_eq : part.origin.line = k
  args_eq : t.args = [operand]
  /-- At the address of the line stands an instruction of its name. -/
  holds : HoldsInstruction (Image.payload program.image) part.origin.address i
  name_eq : i.mnemonic.name = t.op
  address?_eq : i.address? = some a
  fits : a.toNat ≤ addressMax.toNat
  /-- A number is the address itself, also if a label has the same name. -/
  literal : IsLiteral operand.toList → a.toNat = literalValue operand.toList
  /-- Any other operand is the name of one label, and the address is that of the first byte emitted after
  the label's line. -/
  label : ¬IsLiteral operand.toList → ∃ l, Defines source operand l ∧
    (∀ l', Defines source operand l' → l' = l) ∧
      Image.payload program.image = emitted (parts.filter (·.origin.line < l)) ++
        emitted (parts.filter (l < ·.origin.line)) ∧
      a.toNat = (emitted (parts.filter (·.origin.line < l))).length ∧ a.toNat = lineAddress source l
  /-- The address can be written in base ten and in base sixteen. -/
  written : numeral? (decimal a.toNat).toList = some a.toNat ∧
    numeral? ("0x" ++ hex a.toNat).toList = some a.toNat
  /-- The address can be put as a number in the place of the operand. -/
  replaced : ∀ number : String, numeral? number.toList = some a.toNat →
    (∃ source', WithOperand source source' k t.op number) ∧
      ∀ source', WithOperand source source' k t.op number →
        ∃ program', assemble source' = .ok program' ∧ program'.image = program.image

/-! ### The line in the program -/

theorem filter_append_filter {parts : List Part} {l : Nat}
    (increasing : parts.Pairwise fun p q => p.origin.line < q.origin.line)
    (elsewhere : ∀ part ∈ parts, part.origin.line ≠ l) :
    parts.filter (·.origin.line < l) ++ parts.filter (l < ·.origin.line) = parts := by
  induction parts with
  | nil => rfl
  | cons part parts ih =>
    obtain ⟨first, increasing⟩ := List.pairwise_cons.mp increasing
    rw [List.forall_mem_cons] at elsewhere
    rcases Nat.lt_or_gt_of_ne elsewhere.1 with hlt | hgt
    · have notAfter : ¬ l < part.origin.line := by omega
      rw [List.filter_cons_of_pos (by simpa using hlt), List.filter_cons_of_neg (by simpa using notAfter),
        List.cons_append, ih increasing elsewhere.2]
    · have behind : ∀ q ∈ part :: parts, l < q.origin.line := by
        intro q hq
        rcases List.mem_cons.mp hq with rfl | hq
        · exact hgt
        · exact Nat.lt_trans hgt (first q hq)
      have none : (part :: parts).filter (·.origin.line < l) = [] := by
        refine List.filter_eq_nil_iff.mpr fun q hq => ?_
        have := behind q hq
        simp only [decide_eq_true_eq]
        omega
      have all : (part :: parts).filter (l < ·.origin.line) = part :: parts :=
        List.filter_eq_self.mpr fun q hq => by simpa using behind q hq
      rw [none, all, List.nil_append]

section
variable {source : String} {layout : Layout} {parts : List Part} (hl : Layout.ofSource source = .ok layout)
  (hp : layout.Emits parts)
include hl hp

theorem holdsInstruction_of_bytes {part : Part} (hpart : part ∈ parts) {i : Instruction} {a : UInt16}
    (hbytes : part.bytes = i.toBytes) (ha : i.address? = some a) (fits : a.toNat ≤ addressMax.toNat) :
    HoldsInstruction (emitted parts) part.origin.address i := by
  obtain ⟨before, after, rfl⟩ := List.append_of_mem hpart
  refine ⟨i.toWord.toUInt8, (i.toWord >>> 8).toUInt8, ?_, ?_, ?_⟩
  · rw [address_eq hl hp, emitted_append, emitted_cons, hbytes, Instruction.toBytes_eq]
    simp
  · rw [address_eq hl hp, emitted_append, emitted_cons, hbytes, Instruction.toBytes_eq]
    simp
  · rw [Word.ofBytes_toBytes]
    refine Instruction.ofWord?_toWord_of_le fun b hb => ?_
    rwa [← Option.some.inj (ha.symm.trans hb)]

/-- A label's line emits nothing: all parts stand before it or behind it. -/
theorem emitted_eq_append {name : String} {l : Nat} (h : Defines source name l) :
    emitted parts = emitted (parts.filter (·.origin.line < l)) ++
      emitted (parts.filter (l < ·.origin.line)) := by
  have increasing := pairwise_parts hl hp
  have elsewhere : ∀ part ∈ parts, part.origin.line ≠ l := by
    rintro part hpart rfl
    obtain ⟨raw, hraw, text, hkind⟩ := exists_raw hl hp hpart
    obtain ⟨raw', hraw', hlabel⟩ := h
    obtain rfl := Option.some.inj (hraw.symm.trans hraw')
    rw [PlacedLine.kind_of_text text, hlabel] at hkind
    rcases hkind with hkind | hkind
    · cases hkind
    · cases hkind
  rw [← emitted_append, filter_append_filter increasing elsewhere]

theorem exists_defines {operand : String} {a : Nat} (h : layout.labels.address? operand = some a) :
    ∃ l, Defines source operand l ∧ (∀ l', Defines source operand l' → l' = l) ∧
      a = (emitted (parts.filter (·.origin.line < l))).length ∧ a = lineAddress source l := by
  obtain ⟨l, raw, hraw, hlabel, ha⟩ := (mem_labels_iff hl).mp ((address?_eq_some_iff hl).mp h)
  refine ⟨l, ⟨raw, hraw, hlabel⟩, ?_, by rw [ha, totalSize_take_eq hl hp], ha⟩
  rintro l' ⟨raw', hraw', hlabel'⟩
  exact label_line_unique hl hraw' hraw hlabel' hlabel

end

/-! ### The operand as a number -/

theorem assemble_withOperand {source source' : String} {program : Program} {k : Nat} {raw : List Char}
    {operand number : String} (h : assemble source = .ok program)
    (hk : (lines source.toList)[k]? = some raw) (hop : (Statement.ofLine raw).op ∈ addressWords)
    (hargs : (Statement.ofLine raw).args = [operand])
    (haddress : ∀ a, address operand program.labels = .ok a → address number program.labels = .ok a)
    (hw : WithOperand source source' k (Statement.ofLine raw).op number) :
    ∃ program', assemble source' = .ok program' ∧ program'.image = program.image := by
  obtain ⟨raw', hlines, hstatement⟩ := hw
  have hop' : (Statement.ofLine raw').op ∈ addressWords := by
    rw [hstatement]
    exact hop
  have replaces : Replaces program.labels raw raw' := by
    refine ⟨?_, ?_, ?_⟩
    · rw [kind_of_addressWord hop', kind_of_addressWord hop]
    · rw [hstatement, hargs]
      rfl
    · intro bytes hb
      obtain ⟨operand', a, i, hargs', ha, hname, hi, rfl⟩ := (encode_eq_ok_iff_address hop).mp hb
      obtain rfl : operand = operand' := by simpa [hargs] using hargs'
      refine (encode_eq_ok_iff_address hop').mpr ⟨number, a, i, ?_, haddress a ha, ?_, hi, rfl⟩
      · rw [hstatement]
      · rw [hname, hstatement]
  have all := forall₂_set hk replaces
  rw [← hlines] at all
  obtain ⟨program', h', image, -⟩ := assemble_replace h all
  exact ⟨program', h', image⟩

/-! ### Resolution -/

theorem resolution_of_assemble {source : String} {program : Program} {k : Nat} {raw : List Char}
    (h : assemble source = .ok program) (hk : (lines source.toList)[k]? = some raw)
    (hop : (Statement.ofLine raw).op ∈ addressWords) :
    ∃ layout parts part operand i a,
      Resolution source program k (Statement.ofLine raw) layout parts part operand i a := by
  obtain ⟨layout, parts, hl, hp, hprogram⟩ := assemble_eq_ok_iff_emits.mp h
  obtain ⟨part, hpart, hline, hb⟩ := exists_part hl hp hk (kind_of_addressWord hop)
  obtain ⟨operand, a, i, hargs, ha, hname, hi, hbytes⟩ := (encode_eq_ok_iff_address hop).mp hb
  obtain ⟨n, hn, hle, rfl⟩ := address_eq_ok_iff.mp ha
  have value : (UInt16.ofNat n).toNat = n :=
    UInt16.toNat_ofNat_of_lt' (Nat.lt_of_le_of_lt hle (by decide))
  have payload : Image.payload program.image = emitted parts := by
    rw [hprogram, Image.payload_ofPayload]
  have labels : program.labels = layout.labels := by rw [hprogram]
  refine ⟨layout, parts, part, operand, i, .ofNat n, ?_⟩
  exact
    { layout_eq := hl
      emits := hp
      image_eq := by rw [hprogram]; rfl
      mem := hpart
      line_eq := hline
      args_eq := hargs
      holds := by
        rw [payload]
        exact holdsInstruction_of_bytes hl hp hpart hbytes hi (by rw [value]; exact hle)
      name_eq := hname
      address?_eq := hi
      fits := by rw [value]; exact hle
      literal := by
        intro hliteral
        rw [value]
        rcases hn with hn | ⟨hnone, -⟩
        · exact (numeral?_eq_some_iff.mp hn).2
        · exact absurd hliteral (numeral?_eq_none_iff.mp hnone)
      label := by
        intro hliteral
        rw [value, payload]
        rcases hn with hn | ⟨-, hn⟩
        · exact absurd (numeral?_eq_some_iff.mp hn).1 hliteral
        · obtain ⟨l, defines, unique, address⟩ := exists_defines hl hp hn
          exact ⟨l, defines, unique, emitted_eq_append hl hp defines, address⟩
      written := ⟨Operand.isWritten_decimal _, Operand.isWritten_hex _⟩
      replaced := by
        intro number hnumber
        rw [value] at hnumber
        refine ⟨exists_withOperand source k (isOperation_of_addressWord hop) hnumber, ?_⟩
        intro source' hw
        refine assemble_withOperand h hk hop hargs (fun b hb => ?_) hw
        rw [labels, ha] at hb
        obtain rfl := Except.ok.inj hb
        exact address_eq_ok_iff.mpr ⟨n, .inl hnumber, hle, rfl⟩ }

/-- **Labels are resolved** as the numbers of the bytes before them, in every line that takes an
address; and a label that is not defined, or out of reach, is never resolved. -/
theorem address_resolution {source : String} {k : Nat} {raw : List Char}
    (hk : (lines source.toList)[k]? = some raw) (hop : (Statement.ofLine raw).op ∈ addressWords) :
    (∀ program, assemble source = .ok program → ∃ layout parts part operand i a,
        Resolution source program k (Statement.ofLine raw) layout parts part operand i a) ∧
      ∀ operand ∈ (Statement.ofLine raw).args, ¬IsLiteral operand.toList →
        ((∀ l, ¬Defines source operand l) ∨
          ∃ l, Defines source operand l ∧ addressMax.toNat < lineAddress source l) →
        ∀ program, assemble source ≠ .ok program := by
  refine ⟨fun program h => resolution_of_assemble h hk hop, ?_⟩
  rintro operand hoperand hliteral unresolved program h
  obtain ⟨layout, parts, part, operand', i, a, resolution⟩ := resolution_of_assemble h hk hop
  obtain rfl : operand = operand' := by simpa [resolution.args_eq] using hoperand
  obtain ⟨l, defines, unique, -, -, address⟩ := resolution.label hliteral
  rcases unresolved with undefined | ⟨l', defines', beyond⟩
  · exact undefined l defines
  · obtain rfl := unique l' defines'
    have fits := resolution.fits
    omega

/-- A jump over a byte to a label behind it goes to the third byte. -/
theorem address_resolution_forward :
    ∃ program layout parts part operand i a, assemble "HOPP end\n.DATA 1\nend:" = .ok program ∧
      Resolution "HOPP end\n.DATA 1\nend:" program 0 ⟨"HOPP", ["end"]⟩ layout parts part operand i a ∧
      a.toNat = 3 := by
  have hk : (lines "HOPP end\n.DATA 1\nend:".toList)[0]? = some "HOPP end".toList := by decide +kernel
  have read : Statement.ofLine "HOPP end".toList = ⟨"HOPP", ["end"]⟩ := by decide +kernel
  have h : assemble "HOPP end\n.DATA 1\nend:" =
      .ok ⟨Image.tag ++ [0x38, 0x00, 0x01],
        [(0, ⟨0, 0, "HOPP end"⟩), (2, ⟨1, 2, ".DATA 1"⟩)], [("end", 3)]⟩ := by
    decide +kernel
  obtain ⟨layout, parts, part, operand, i, a, resolution⟩ :=
    (address_resolution hk (by rw [read]; decide)).1 _ h
  rw [read] at resolution
  obtain rfl : "end" = operand := by simpa using resolution.args_eq
  have noNumber : ¬IsLiteral "end".toList := numeral?_eq_none_iff.mp (by decide +kernel)
  obtain ⟨l, -, unique, -, -, address⟩ := resolution.label noNumber
  obtain rfl : 2 = l := unique 2 ⟨"end:".toList, by decide +kernel, by decide +kernel⟩
  exact ⟨_, layout, parts, part, "end", i, a, h, resolution, address.trans (by decide +kernel)⟩

end ByteMachine.Source
