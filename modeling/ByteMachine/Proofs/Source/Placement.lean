import ByteMachine.Proofs.Source.Parts

/-!
# Addresses agree with bytes

The first pass places the lines by their sizes, the second one emits their bytes. For every text that
assembles the two agree: each line starts at the number of bytes emitted before it, and each label at
the number of bytes emitted by the lines before its own (`assemble_places_bytes`).
-/

namespace ByteMachine.Source

open Text

/-- The bytes of a program, line by line. -/
structure Placement (source : String) (program : Program) (layout : Layout) (parts : List Part) :
    Prop where
  layout_eq : Layout.ofSource source = .ok layout
  labels_eq : program.labels = layout.labels
  /-- Each line of code is encoded against all labels. -/
  emits : layout.Emits parts
  image_eq : program.image = Image.tag ++ emitted parts
  /-- A line starts at the number of bytes emitted before it. -/
  line_address : ∀ before part after, parts = before ++ part :: after →
    part.origin.address = (emitted before).length
  /-- The bytes of a line are found in the payload at its address. -/
  line_bytes : ∀ part ∈ parts,
    ((emitted parts).drop part.origin.address).take part.bytes.length = part.bytes
  /-- Lines of code are lines of the source text, without the blanks at their ends. -/
  line_text : ∀ part ∈ parts, ∃ raw, (lines source.toList)[part.origin.line]? = some raw ∧
    part.origin.text = String.ofList (trim raw)
  line_increasing : parts.Pairwise fun p q => p.origin.line < q.origin.line
  /-- A label stands at the number of bytes emitted by the lines before its own. -/
  label_address : ∀ name a, (name, a) ∈ layout.labels ↔
    ∃ k raw, (lines source.toList)[k]? = some raw ∧ LineKind.ofLine raw = .label name ∧
      a = (emitted (parts.filter (·.origin.line < k))).length
  /-- An instruction line emits two bytes, and not as data. -/
  instruction_bytes : ∀ part ∈ parts, part.origin.kind = .instruction →
    part.origin.statement.op.toList ≠ dataDirective ∧ part.bytes.length = 2
  /-- A data line emits one byte for each argument. -/
  data_bytes : ∀ part ∈ parts, part.origin.kind = .data →
    part.origin.statement.op.toList = dataDirective ∧
      part.bytes.length = part.origin.statement.args.length
  /-- No other line emits bytes. -/
  line_kind : ∀ part ∈ parts, part.origin.kind = .data ∨ part.origin.kind = .instruction

/-- **Addresses agree with bytes** in every program. -/
theorem assemble_places_bytes {source : String} {program : Program}
    (h : assemble source = .ok program) : ∃ layout parts, Placement source program layout parts := by
  obtain ⟨layout, parts, hl, hp, rfl⟩ := assemble_eq_ok_iff_emits.mp h
  have starts : ∀ before part after, parts = before ++ part :: after →
      part.origin.address = (emitted before).length := by
    rintro before part after rfl
    exact address_eq hl hp
  refine ⟨layout, parts, hl, rfl, hp, rfl, starts, ?_, ?_, pairwise_parts hl hp,
    fun _ _ => mem_labels_iff_emitted hl hp, ?_, ?_, ?_⟩
  · intro part hpart
    obtain ⟨before, after, hsplit⟩ := List.append_of_mem hpart
    rw [starts before part after hsplit, hsplit, emitted_append, emitted_cons, List.drop_left,
      List.take_left]
  · intro part hpart
    obtain ⟨raw, hraw, text, -⟩ := exists_raw hl hp hpart
    exact ⟨raw, hraw, text⟩
  · intro part hpart hkind
    rcases bytes_cases hl hp hpart with ⟨-, hop, hlen⟩ | ⟨hdata, -, -⟩
    · exact ⟨hop, hlen⟩
    · rw [hdata] at hkind
      cases hkind
  · intro part hpart hkind
    rcases bytes_cases hl hp hpart with ⟨hinst, -, -⟩ | ⟨-, hop, hlen⟩
    · rw [hinst] at hkind
      cases hkind
    · exact ⟨hop, hlen⟩
  · intro part hpart
    exact (exists_raw hl hp hpart).choose_spec.2.2

/-- Two bytes of data before a label shift what follows. -/
theorem assemble_places_bytes_data :
    ∃ program, assemble ".DATA 7,, 0x1 f ; two\nhere: ; label\n\tHOPP here" = .ok program ∧
      program.image = Image.tag ++ [0x07, 0x1F, 0x28, 0x00] ∧
      ∃ layout parts, Placement ".DATA 7,, 0x1 f ; two\nhere: ; label\n\tHOPP here" program layout parts := by
  have h : assemble ".DATA 7,, 0x1 f ; two\nhere: ; label\n\tHOPP here" =
      .ok ⟨Image.tag ++ [0x07, 0x1F, 0x28, 0x00],
        [(0, ⟨0, 0, ".DATA 7,, 0x1 f ; two"⟩), (2, ⟨2, 2, "HOPP here"⟩)], [("here", 2)]⟩ := by
    decide +kernel
  exact ⟨_, h, rfl, assemble_places_bytes h⟩

end ByteMachine.Source
