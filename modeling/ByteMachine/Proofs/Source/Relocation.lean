import ByteMachine.Proofs.Source.Capacity
import ByteMachine.Proofs.Source.Diagnosis
import ByteMachine.Proofs.Source.Grammar

/-!
# One text behind another

A text that starts a line may stand behind another text. Its lines and bytes are then counted on from those
of the first text, and this is all that the first text does to it: the only state that is carried from line
to line is the address.

* `encode_congr`: code looks into the table only for the label that it names (`Statement.NamesLabel`), and
  a number is no label;
* `placedLines_append`, `ofSource_append`: the second text is laid out as it is alone, at other places
  (`PlacedLine.move`, `Labels.move`);
* `exists_moves`, `not_inReach_of_miscodes`: a line of the second text stands for the same bytes as alone,
  but for the address of a label (`Part.Moves`), and it is wrong only if this address is too large;
* `assemble_append`: the program of both texts, or its error.
-/

namespace ByteMachine.Source

open Text

/-! ### The use of a label -/

/-- The statement takes an address, and its operand is the name of a label. -/
def Statement.NamesLabel (t : Statement) (name : String) : Prop :=
  t.op ∈ addressWords ∧ t.args = [name] ∧ ¬IsLiteral name.toList

/-- Line `k` of the text takes the address of the label. -/
def UsesLabel (source : String) (k : Nat) (name : String) : Prop :=
  ∃ raw, (lines source.toList)[k]? = some raw ∧ (Statement.ofLine raw).NamesLabel name

/-- The address that line `k` takes from the table is within the memory also behind `n` bytes. -/
def InReach (source : String) (labels : Labels) (n k : Nat) : Prop :=
  ∀ name a, UsesLabel source k name → labels.address? name = some a → a + n ≤ 0xFFF

theorem Statement.NamesLabel.unique {t : Statement} {name name' : String} (h : t.NamesLabel name)
    (h' : t.NamesLabel name') : name = name' := by
  have args := h.2.1.symm.trans h'.2.1
  simpa using args

section
variable {labels labels' : Labels}

theorem AreRead.congr {forms : List OperandForm} {tokens : List String} {os : List Operand}
    (h : AreRead labels forms tokens os) (hf : .address ∉ forms) : AreRead labels' forms tokens os := by
  induction h with
  | nil => exact .nil
  | cons h _ ih =>
    rw [List.mem_cons, not_or] at hf
    refine .cons ?_ (ih hf.2)
    cases h with
    | register h => exact .register h
    | immediate h => exact .immediate h
    | copy hn h => exact .copy hn h
    | address h => exact absurd rfl hf.1

theorem not_mem_signature {m : Mnemonic} (h : m.name ∉ addressWords) : .address ∉ m.signature := by
  rw [mem_addressWords_iff] at h
  cases m with
  | locate | jump | jumpIf | call => exact absurd rfl h
  | _ => simp [Mnemonic.signature]

/-- Code that can be encoded is encoded alike against every table that has the same address for the label
that it names. -/
theorem encode_congr {t : Statement} {bytes : List UInt8} (h : encode labels t = .ok bytes)
    (same : ∀ name, t.NamesLabel name → labels'.address? name = labels.address? name) :
    encode labels' t = .ok bytes := by
  by_cases hop : t.op ∈ addressWords
  · rw [encode_eq_ok_iff_address hop] at h ⊢
    obtain ⟨name, a, i, hargs, ha, hi⟩ := h
    refine ⟨name, a, i, hargs, ?_, hi⟩
    rw [address_eq_ok_iff] at ha ⊢
    obtain ⟨n, hn | ⟨hnone, hl⟩, hle⟩ := ha
    · exact ⟨n, .inl hn, hle⟩
    · have names : t.NamesLabel name := ⟨hop, hargs, numeral?_eq_none_iff.mp hnone⟩
      exact ⟨n, .inr ⟨hnone, (same name names).trans hl⟩, hle⟩
  · by_cases hd : t.op.toList = dataDirective
    · rw [encode_of_directive hd] at h ⊢
      exact h
    · rw [encode_eq_ok_iff hd] at h ⊢
      obtain ⟨i, hname, read, rfl⟩ := h
      exact ⟨i, hname, read.congr (not_mem_signature (hname ▸ hop)), rfl⟩

theorem exists_address_of_namesLabel {t : Statement} {name : String} {bytes : List UInt8}
    (h : encode labels t = .ok bytes) (hn : t.NamesLabel name) :
    ∃ a, labels.address? name = some a ∧ a ≤ 0xFFF ∧
      ∃ i : Instruction, i.mnemonic.name = t.op ∧ i.address? = some (UInt16.ofNat a) ∧
        bytes = i.toBytes := by
  obtain ⟨hop, hargs, hliteral⟩ := hn
  obtain ⟨name', b, i, hargs', hb, hname, hi, rfl⟩ := (encode_eq_ok_iff_address hop).mp h
  obtain rfl : name = name' := by simpa [hargs] using hargs'
  obtain ⟨a, ha | ⟨-, ha⟩, hle, rfl⟩ := address_eq_ok_iff.mp hb
  · exact absurd (numeral?_eq_some_iff.mp ha).1 hliteral
  · exact ⟨a, ha, hle, i, hname, hi, rfl⟩

theorem encode_mono {t : Statement} {bytes : List UInt8} (h : encode labels t = .ok bytes)
    (larger : ∀ name a, labels.address? name = some a → labels'.address? name = some a) :
    encode labels' t = .ok bytes := by
  refine encode_congr h fun name names => ?_
  obtain ⟨a, ha, -⟩ := exists_address_of_namesLabel h names
  rw [ha, larger name a ha]

/-! ### Tables with shifted addresses -/

variable {t : Statement} {name : String} {n : Nat}

theorem encode_of_namesLabel {i : Instruction} {a : UInt16} {b : Nat} {f : UInt16 → UInt16}
    (hn : t.NamesLabel name) (hname : i.mnemonic.name = t.op) (hi : i.address? = some a)
    (hf : f a = UInt16.ofNat b) (hb : labels.address? name = some b) (fits : b ≤ 0xFFF) :
    encode labels t = .ok (i.mapAddress f).toBytes := by
  obtain ⟨hop, hargs, hliteral⟩ := hn
  have address := address_eq_ok_iff.mpr ⟨b, .inr ⟨numeral?_eq_none_iff.mpr hliteral, hb⟩, fits, rfl⟩
  refine (encode_eq_ok_iff_address hop).mpr ⟨name, _, _, hargs, address, ?_, ?_, rfl⟩
  · rw [Instruction.mnemonic_mapAddress, hname]
  · rw [Instruction.address?_mapAddress, hi, Option.map_some, hf]

theorem encode_of_namesLabel_of_lt {b : Nat} (hn : t.NamesLabel name)
    (hb : labels.address? name = some b) (beyond : 0xFFF < b) :
    encode labels t = .error (.outOfRange name 0xFFF) := by
  obtain ⟨op, args⟩ := t
  obtain ⟨hop, rfl, hliteral⟩ := hn
  have row : ∀ op ∈ addressWords, (op, [OperandForm.address]) ∈ instructionTable := by decide
  exact encode_of_isFaulty (.operand (row op hop) rfl .nil (.label hliteral hb beyond))

end

/-! ### Places behind another text -/

/-- The line in its place behind `l` lines and `n` bytes. -/
def PlacedLine.move (l n : Nat) (p : PlacedLine) : PlacedLine := ⟨p.line + l, p.address + n, p.text⟩

/-- The labels with their addresses behind `n` bytes. -/
def Labels.move (n : Nat) (labels : Labels) : Labels := labels.map fun d => (d.1, d.2 + n)

theorem PlacedLine.size_move (l n : Nat) (p : PlacedLine) : (p.move l n).size = p.size := rfl

theorem PlacedLine.definition?_move (l n : Nat) (p : PlacedLine) :
    (p.move l n).definition? = p.definition?.map fun d => (d.1, d.2 + n) := by
  have kind : (p.move l n).kind = p.kind := rfl
  unfold definition?
  rw [kind]
  split <;> rfl

theorem Labels.map_fst_move (n : Nat) (labels : Labels) :
    (labels.move n).map Prod.fst = labels.map Prod.fst := by
  simp [Labels.move]

theorem place_move (l n line address : Nat) (raws : List (List Char)) :
    place (line + l) (address + n) raws = (place line address raws).map (PlacedLine.move l n) := by
  induction raws generalizing line address with
  | nil => rfl
  | cons raw raws ih =>
    have head : ⟨line + l, address + n, String.ofList (trim raw)⟩ =
        PlacedLine.move l n ⟨line, address, String.ofList (trim raw)⟩ := rfl
    rw [place, place, List.map_cons, head, PlacedLine.size_move, Nat.add_right_comm line,
      Nat.add_right_comm address, ih]

section
variable {p s : String} {first second : Layout} (starts : StartsLine p.toList)
include starts

theorem getElem?_lines_append (j : Nat) :
    (lines (p ++ s).toList)[(lines p.toList).length + j]? = (lines s.toList)[j]? := by
  rw [String.toList_append, lines_append starts, List.getElem?_append_right (Nat.le_add_right _ _),
    Nat.add_sub_cancel_left]

theorem placedLines_append : placedLines (p ++ s) = placedLines p ++
    (placedLines s).map (.move (lines p.toList).length (totalSize (placedLines p))) := by
  rw [placedLines, String.toList_append, lines_append starts, place_append, place_move]
  rfl

theorem ofSource_append (hp : Layout.ofSource p = .ok first) (hs : Layout.ofSource s = .ok second)
    (disjoint : List.Disjoint (first.labels.map Prod.fst) (second.labels.map Prod.fst)) :
    Layout.ofSource (p ++ s) = .ok ⟨first.labels ++ second.labels.move (totalSize (placedLines p)),
      first.placed ++ second.placed.map (.move (lines p.toList).length (totalSize (placedLines p)))⟩ := by
  have distinct := nodup_labels hp
  have distinct' := nodup_labels hs
  obtain ⟨-, rfl⟩ := Layout.ofSource_eq_ok_iff.mp hp
  obtain ⟨-, rfl⟩ := Layout.ofSource_eq_ok_iff.mp hs
  have labels : (placedLines (p ++ s)).filterMap PlacedLine.definition? =
      (placedLines p).filterMap PlacedLine.definition? ++
        Labels.move (totalSize (placedLines p)) ((placedLines s).filterMap PlacedLine.definition?) := by
    rw [placedLines_append starts, List.filterMap_append, List.filterMap_map, Labels.move,
      List.map_filterMap]
    simp only [Function.comp_def, PlacedLine.definition?_move]
  have placed : (placedLines (p ++ s)).filter PlacedLine.holdsCode =
      (placedLines p).filter PlacedLine.holdsCode ++ ((placedLines s).filter PlacedLine.holdsCode).map
        (.move (lines p.toList).length (totalSize (placedLines p))) := by
    rw [placedLines_append starts, List.filter_append, List.filter_map]
    rfl
  rw [Layout.ofSource_eq_ok_iff, labels, placed, redefinition?_eq_none_iff, labels, List.map_append,
    Labels.map_fst_move]
  exact ⟨⟨List.nodup_append'.mpr ⟨distinct, distinct', disjoint⟩, by simp⟩, rfl⟩

end

/-! ### Parts behind another text -/

/-- The part in its place behind `l` lines and `n` bytes: the address that its line takes from the table is
`n` larger, and nothing else changes. -/
structure Part.Moves (labels : Labels) (l n : Nat) (part part' : Part) : Prop where
  origin_eq : part'.origin = part.origin.move l n
  kept : (∀ name, ¬part.origin.statement.NamesLabel name) → part'.bytes = part.bytes
  moved : ∀ name, part.origin.statement.NamesLabel name → ∃ i : Instruction, ∃ a,
    labels.address? name = some a ∧ a + n ≤ 0xFFF ∧ i.address? = some (UInt16.ofNat a) ∧
      part.bytes = i.toBytes ∧ part'.bytes = (i.mapAddress fun _ => UInt16.ofNat (a + n)).toBytes

theorem exists_moves {labels labels' : Labels} {l n : Nat} {part : Part}
    (h : encode labels part.origin.statement = .ok part.bytes)
    (shifted : ∀ name a, labels.address? name = some a → labels'.address? name = some (a + n))
    (reach : ∀ name a, part.origin.statement.NamesLabel name → labels.address? name = some a →
      a + n ≤ 0xFFF) :
    ∃ part', part.Moves labels l n part' ∧ encode labels' part'.origin.statement = .ok part'.bytes := by
  by_cases names : ∃ name, part.origin.statement.NamesLabel name
  · obtain ⟨name, names⟩ := names
    obtain ⟨a, ha, -, i, hname, hi, bytes⟩ := exists_address_of_namesLabel h names
    have fits := reach name a names ha
    have encoded := encode_of_namesLabel (f := fun _ => UInt16.ofNat (a + n)) names hname hi rfl
      (shifted name a ha) fits
    refine ⟨⟨part.origin.move l n, _⟩, ⟨rfl, fun none => absurd names (none name), ?_⟩, encoded⟩
    intro name' names'
    obtain rfl := names.unique names'
    exact ⟨i, a, ha, fits, hi, bytes, rfl⟩
  · have none := not_exists.mp names
    refine ⟨⟨part.origin.move l n, part.bytes⟩, ⟨rfl, fun _ => rfl, ?_⟩, ?_⟩
    · intro name names
      exact absurd names (none name)
    · exact encode_congr h fun name names => absurd names (none name)

section
variable {p s : String} {first second : Program} {labels : Labels} {n : Nat}
  (starts : StartsLine p.toList) (hp : assemble p = .ok first) (hs : assemble s = .ok second)
  (larger : ∀ name a, first.labels.address? name = some a → labels.address? name = some a)
  (shifted : ∀ name a, second.labels.address? name = some a → labels.address? name = some (a + n))
include starts shifted

/-- A line whose label is out of reach behind the other text is wrong there. -/
theorem miscodes_of_not_inReach {k : Nat} (h : ¬InReach s second.labels n k) :
    ∃ cause, Miscodes (p ++ s) labels ((lines p.toList).length + k) cause := by
  simp only [InReach, not_forall, Nat.not_le] at h
  obtain ⟨name, a, ⟨raw, hraw, names⟩, ha, beyond⟩ := h
  refine ⟨_, raw, ?_, .inr (kind_of_addressWord names.1),
    encode_of_namesLabel_of_lt names (shifted name a ha) beyond⟩
  rw [getElem?_lines_append starts, hraw]

include hp hs larger

/-- Nothing else is wrong with the two texts. -/
theorem not_inReach_of_miscodes {k : Nat} {cause : SourceError}
    (h : Miscodes (p ++ s) labels k cause) : ∃ j name, k = (lines p.toList).length + j ∧
      UsesLabel s j name ∧ ¬InReach s second.labels n j ∧ cause = .outOfRange name 0xFFF := by
  obtain ⟨raw, hraw, hkind, he⟩ := h
  rcases Nat.lt_or_ge k (lines p.toList).length with hk | hk
  · rw [String.toList_append, lines_append starts, List.getElem?_append_left hk] at hraw
    obtain ⟨bytes, hb⟩ := exists_encode_of_assemble hp hraw hkind
    rw [encode_mono hb larger] at he
    cases he
  · obtain ⟨j, rfl⟩ := Nat.exists_eq_add_of_le hk
    rw [getElem?_lines_append starts] at hraw
    obtain ⟨bytes, hb⟩ := exists_encode_of_assemble hs hraw hkind
    by_cases names : ∃ name, (Statement.ofLine raw).NamesLabel name
    · obtain ⟨name, names⟩ := names
      obtain ⟨a, ha, -, i, hname, hi, -⟩ := exists_address_of_namesLabel hb names
      rcases Nat.lt_or_ge 0xFFF (a + n) with beyond | fits
      · refine ⟨j, name, rfl, ⟨raw, hraw, names⟩, fun reach => ?_, ?_⟩
        · exact absurd (reach name a ⟨raw, hraw, names⟩ ha) (Nat.not_le.mpr beyond)
        · rw [encode_of_namesLabel_of_lt names (shifted name a ha) beyond] at he
          exact (Except.error.inj he).symm
      · rw [encode_of_namesLabel (f := fun _ => UInt16.ofNat (a + n)) names hname hi rfl
          (shifted name a ha) fits] at he
        cases he
    · rw [encode_congr hb fun name hname => absurd ⟨name, hname⟩ names] at he
      cases he

end

/-! ### Programs behind another program -/

theorem address?_append {p s : String} {first second : Layout} {labels : Labels} {n : Nat}
    {placed : List PlacedLine} (hp : Layout.ofSource p = .ok first) (hs : Layout.ofSource s = .ok second)
    (h : Layout.ofSource (p ++ s) = .ok ⟨labels, placed⟩)
    (hlabels : labels = first.labels ++ second.labels.move n) :
    (∀ name a, first.labels.address? name = some a → labels.address? name = some a) ∧
      ∀ name a, second.labels.address? name = some a → labels.address? name = some (a + n) := by
  constructor
  · intro name a ha
    refine (address?_eq_some_iff h).mpr ?_
    rw [hlabels]
    exact List.mem_append_left _ ((address?_eq_some_iff hp).mp ha)
  · intro name a ha
    refine (address?_eq_some_iff h).mpr ?_
    rw [hlabels]
    exact List.mem_append_right _ (List.mem_map_of_mem (f := fun d => (d.1, d.2 + n))
      ((address?_eq_some_iff hs).mp ha))

theorem exists_forall₂_moves {s : String} {layout : Layout} {labels' : Labels} {n : Nat}
    {parts : List Part} (hl : Layout.ofSource s = .ok layout) (hp : layout.Emits parts) (l : Nat)
    (shifted : ∀ name a, layout.labels.address? name = some a → labels'.address? name = some (a + n))
    (reach : ∀ k, InReach s layout.labels n k) :
    ∃ moved, List.Forall₂ (Part.Moves layout.labels l n) parts moved ∧
      ∀ part ∈ moved, encode labels' part.origin.statement = .ok part.bytes := by
  have each : ∀ part ∈ parts, ∃ part', part.Moves layout.labels l n part' ∧
      encode labels' part'.origin.statement = .ok part'.bytes := by
    intro part hpart
    refine exists_moves (hp.encoded part hpart) shifted fun name a names ha => ?_
    obtain ⟨raw, hraw, text, -⟩ := exists_raw hl hp hpart
    rw [PlacedLine.statement_of_text text] at names
    exact reach part.origin.line name a ⟨raw, hraw, names⟩ ha
  obtain ⟨moved, both⟩ := exists_forall₂_iff.mpr each
  obtain ⟨encoded, moves⟩ := (List.forall₂_and_left _ _).mp (both.flip.imp fun _ _ h => h.symm)
  exact ⟨moved, moves.flip, encoded⟩

theorem emits_append {first second : Layout} {labels : Labels} {l n : Nat} {parts rest moved : List Part}
    (hp : first.Emits parts) (hs : second.Emits rest)
    (larger : ∀ name a, first.labels.address? name = some a → labels.address? name = some a)
    (moves : List.Forall₂ (Part.Moves second.labels l n) rest moved)
    (encoded : ∀ part ∈ moved, encode labels part.origin.statement = .ok part.bytes) :
    Layout.Emits ⟨labels, first.placed ++ second.placed.map (.move l n)⟩ (parts ++ moved) where
  origins := by
    have origins : moved.map Part.origin = rest.map fun part => part.origin.move l n := by
      rw [← List.forall₂_eq_eq_eq, List.forall₂_map_left_iff, List.forall₂_map_right_iff]
      exact moves.flip.imp fun _ _ h => h.origin_eq
    rw [List.map_append, origins, hp.origins, ← hs.origins, List.map_map]
    rfl
  encoded := by
    intro part hpart
    rcases List.mem_append.mp hpart with hpart | hpart
    · exact encode_mono (hp.encoded part hpart) larger
    · exact encoded part hpart

/-- The number of bytes of the program, without the tag. -/
def Program.size (program : Program) : Nat := (Image.payload program.image).length

/-- **One text behind another**, with other names: the program is that of the first text and behind it that
of the second, whose labels are moved by the size of the first, and with them the addresses taken from its
table, but no others. If one of these is not within the memory, the first line with such an address is the
only thing that is wrong. -/
theorem assemble_append {p s : String} {first second : Program} (starts : StartsLine p.toList)
    (hp : assemble p = .ok first) (hs : assemble s = .ok second)
    (disjoint : List.Disjoint (first.labels.map Prod.fst) (second.labels.map Prod.fst)) :
    ((∀ k, InReach s second.labels first.size k) →
        ∃ program layout parts moved, assemble (p ++ s) = .ok program ∧
          Layout.ofSource s = .ok layout ∧ layout.Emits parts ∧
          Image.payload second.image = emitted parts ∧
          List.Forall₂ (Part.Moves second.labels (lines p.toList).length first.size) parts moved ∧
          Image.payload program.image = Image.payload first.image ++ emitted moved ∧
          program.labels = first.labels ++ second.labels.move first.size) ∧
      ((∃ k, ¬InReach s second.labels first.size k) →
        ∃ k raw name, (lines s.toList)[k]? = some raw ∧ (Statement.ofLine raw).NamesLabel name ∧
          ¬InReach s second.labels first.size k ∧
          (∀ j < k, InReach s second.labels first.size j) ∧
          assemble (p ++ s) = .error ⟨(lines p.toList).length + k, String.ofList (trim raw),
            .outOfRange name 0xFFF⟩) := by
  rw [Program.size, length_payload hp]
  obtain ⟨layoutP, partsP, hlp, hep, rfl⟩ := assemble_eq_ok_iff_emits.mp hp
  obtain ⟨layoutS, partsS, hls, hes, rfl⟩ := assemble_eq_ok_iff_emits.mp hs
  have hl := ofSource_append starts hlp hls disjoint
  obtain ⟨larger, shifted⟩ := address?_append hlp hls hl rfl
  constructor
  · intro reach
    obtain ⟨moved, moves, encoded⟩ :=
      exists_forall₂_moves hls hes (lines p.toList).length shifted reach
    have emits := emits_append hep hes larger moves encoded
    have assembled := assemble_eq_ok_iff_emits.mpr ⟨_, _, hl, emits, rfl⟩
    refine ⟨_, layoutS, partsS, moved, assembled, hls, hes, ?_, moves, ?_, rfl⟩
    · exact Image.payload_ofPayload _
    · rw [Image.payload_ofPayload, Image.payload_ofPayload, emitted_append]
  · rintro ⟨k, unreached⟩
    obtain ⟨cause, miscodes⟩ := miscodes_of_not_inReach starts shifted unreached
    obtain ⟨⟨line, text, cause⟩, hm⟩ := exists_mapM_eq_error hl ⟨_, _, miscodes⟩
    obtain ⟨wrong, before, raw, hraw, rfl⟩ := isFirst_of_mapM_eq_error hl hm
    obtain ⟨j, name, rfl, ⟨raw', hraw', names⟩, unreached, rfl⟩ :=
      not_inReach_of_miscodes starts hp hs larger shifted wrong
    rw [getElem?_lines_append starts] at hraw
    obtain rfl := Option.some.inj (hraw'.symm.trans hraw)
    refine ⟨j, raw', name, hraw', names, unreached, fun i hi => ?_, ?_⟩
    · by_contra unreached
      obtain ⟨cause, miscodes⟩ := miscodes_of_not_inReach starts shifted unreached
      exact before _ (Nat.add_lt_add_left hi _) _ miscodes
    · exact bind_eq_error_iff.mpr (.inr ⟨_, hl, bind_eq_error_iff.mpr (.inl hm)⟩)

/-- A byte moves the label behind it, and with it the jump to the label, but not the jump to a number. -/
theorem assemble_append_byte : ∃ program parts moved,
    assemble (".DATA 7\n" ++ "NOPE\nb:\nHOPP b\nHOPP 2") = .ok program ∧
      List.Forall₂ (Part.Moves [("b", 2)] 1 1) parts moved ∧
      emitted parts = [0x0C, 0x00, 0x28, 0x00, 0x28, 0x00] ∧
      emitted moved = [0x0C, 0x00, 0x38, 0x00, 0x28, 0x00] ∧ program.labels = [("b", 3)] := by
  have hp : assemble ".DATA 7\n" = .ok ⟨Image.tag ++ [7], [(0, ⟨0, 0, ".DATA 7"⟩)], []⟩ := by
    decide +kernel
  have hs : assemble "NOPE\nb:\nHOPP b\nHOPP 2" =
      .ok ⟨Image.tag ++ [0x0C, 0x00, 0x28, 0x00, 0x28, 0x00],
        [(0, ⟨0, 0, "NOPE"⟩), (2, ⟨2, 2, "HOPP b"⟩), (4, ⟨3, 4, "HOPP 2"⟩)], [("b", 2)]⟩ := by
    decide +kernel
  have h : (assemble (".DATA 7\n" ++ "NOPE\nb:\nHOPP b\nHOPP 2")).toOption.map (Image.payload ·.image) =
      some [7, 0x0C, 0x00, 0x38, 0x00, 0x28, 0x00] := by
    decide +kernel
  have starts : StartsLine ".DATA 7\n".toList := .inr (by decide +kernel)
  have reach (k : Nat) : InReach "NOPE\nb:\nHOPP b\nHOPP 2" [("b", 2)] 1 k := by
    intro name a _ ha
    have only : (name, a) ∈ [("b", 2)] := (lookup_eq_some_iff (by decide)).mp ha
    obtain ⟨-, rfl⟩ : name = "b" ∧ a = 2 := by simpa using only
    decide
  have count : (lines ".DATA 7\n".toList).length = 1 := by decide +kernel
  obtain ⟨program, layout, parts, moved, ok, -, -, bytes, moves, payload, labels⟩ :=
    (assemble_append starts hp hs (List.disjoint_nil_left _)).1 reach
  rw [count] at moves
  rw [ok] at h
  have payload' : Image.payload program.image = [7, 0x0C, 0x00, 0x38, 0x00, 0x28, 0x00] :=
    Option.some.inj h
  exact ⟨program, parts, moved, ok, moves, bytes.symm,
    (List.cons.inj (payload.symm.trans payload')).2, labels⟩

end ByteMachine.Source
