import ByteMachine.Proofs.Source.Encoding
import ByteMachine.Proofs.Source.Layout
import ByteMachine.Source.Program

/-!
# The parts of a program

A program that assembles is its lines of code, each with the bytes that it stands for
(`assemble_eq_ok_iff_emits`). The bytes of a part are as many as were kept free for its line
(`length_bytes`), so the address of a line is the number of bytes emitted before it (`address_eq`), and
that of a label the number of bytes emitted by the lines before the label (`mem_labels_iff_emitted`).
-/

namespace ByteMachine.Source

open Text

/-- A line of code with the bytes that it stands for. -/
structure Part where
  origin : PlacedLine
  bytes : List UInt8
  deriving DecidableEq, Repr

/-- The bytes of the parts, in order. -/
def emitted (parts : List Part) : List UInt8 := parts.flatMap Part.bytes

theorem emitted_append (ps qs : List Part) : emitted (ps ++ qs) = emitted ps ++ emitted qs :=
  List.flatMap_append

theorem emitted_cons (part : Part) (ps : List Part) :
    emitted (part :: ps) = part.bytes ++ emitted ps :=
  List.flatMap_cons

/-- The parts are the lines of code of the layout, each encoded against all labels. -/
structure Layout.Emits (layout : Layout) (parts : List Part) : Prop where
  origins : parts.map Part.origin = layout.placed
  encoded : ∀ part ∈ parts, encode layout.labels part.origin.statement = .ok part.bytes

/-! ### Programs as parts -/

theorem encodeLine_eq_ok_iff {labels : Labels} {p : PlacedLine} {bytes : List UInt8} :
    encodeLine labels p = .ok bytes ↔ encode labels p.statement = .ok bytes := by
  unfold encodeLine
  cases encode labels p.statement <;> simp [Except.mapError]

theorem encodeLine_eq_error_iff {labels : Labels} {p : PlacedLine} {e : LocatedError} :
    encodeLine labels p = .error e ↔
      ∃ cause, encode labels p.statement = .error cause ∧ e = p.error cause := by
  unfold encodeLine
  cases encode labels p.statement <;> simp [Except.mapError, eq_comm]

/-- Two lists that match pairwise are the two sides of a list of parts. -/
theorem forall₂_iff_exists_parts {R : PlacedLine → List UInt8 → Prop} {ps : List PlacedLine}
    {bss : List (List UInt8)} :
    List.Forall₂ R ps bss ↔ ∃ parts : List Part, parts.map Part.origin = ps ∧
      parts.map Part.bytes = bss ∧ ∀ part ∈ parts, R part.origin part.bytes := by
  constructor
  · intro h
    induction h with
    | nil => exact ⟨[], rfl, rfl, by simp⟩
    | @cons p bs ps bss hr _ ih =>
      obtain ⟨parts, rfl, rfl, hparts⟩ := ih
      refine ⟨⟨p, bs⟩ :: parts, rfl, rfl, ?_⟩
      intro part hpart
      rcases List.mem_cons.mp hpart with rfl | hpart
      · exact hr
      · exact hparts part hpart
  · rintro ⟨parts, rfl, rfl, h⟩
    rw [List.forall₂_map_left_iff, List.forall₂_map_right_iff, List.forall₂_same]
    exact h

/-- **A program is its parts**: it assembles when all its lines of code can be encoded. -/
theorem assemble_eq_ok_iff_emits {source : String} {program : Program} :
    assemble source = .ok program ↔
      ∃ layout parts, Layout.ofSource source = .ok layout ∧ layout.Emits parts ∧
        program = ⟨Image.ofPayload (emitted parts), SourceMap.ofPlaced layout.placed,
          layout.labels⟩ := by
  rw [assemble_eq_ok_iff]
  simp only [mapM_eq_ok_iff, encodeLine_eq_ok_iff, forall₂_iff_exists_parts]
  constructor
  · rintro ⟨layout, bss, hl, ⟨parts, ho, rfl, he⟩, rfl⟩
    exact ⟨layout, parts, hl, ⟨ho, he⟩, by rw [emitted, List.flatMap_def]⟩
  · rintro ⟨layout, parts, hl, ⟨ho, he⟩, rfl⟩
    exact ⟨layout, _, hl, ⟨parts, ho, rfl, he⟩, by rw [emitted, List.flatMap_def]⟩

/-! ### Sizes and addresses -/

section

variable {source : String} {layout : Layout} {parts : List Part}

theorem exists_raw (hl : Layout.ofSource source = .ok layout) (hp : layout.Emits parts) {part : Part}
    (h : part ∈ parts) : ∃ raw, (lines source.toList)[part.origin.line]? = some raw ∧
      part.origin.text = String.ofList (trim raw) ∧
        (part.origin.kind = .data ∨ part.origin.kind = .instruction) := by
  have placed : part.origin ∈ layout.placed := by
    rw [← hp.origins]
    exact List.mem_map_of_mem h
  obtain ⟨k, raw, hk, hkind, ho⟩ := (mem_placed_iff hl).mp placed
  have text : part.origin.text = String.ofList (trim raw) := by rw [ho]
  refine ⟨raw, by rw [ho]; exact hk, text, ?_⟩
  rwa [PlacedLine.kind_of_text text]

theorem exists_part (hl : Layout.ofSource source = .ok layout) (hp : layout.Emits parts) {k : Nat}
    {raw : List Char} (hk : (lines source.toList)[k]? = some raw)
    (hkind : LineKind.ofLine raw = .instruction) :
    ∃ part ∈ parts, part.origin.line = k ∧
      encode layout.labels (Statement.ofLine raw) = .ok part.bytes := by
  have placed := (mem_placed_iff hl).mpr ⟨k, raw, hk, .inr hkind, rfl⟩
  rw [← hp.origins, List.mem_map] at placed
  obtain ⟨part, hpart, origin⟩ := placed
  refine ⟨part, hpart, by rw [origin], ?_⟩
  have encoded := hp.encoded part hpart
  have text : part.origin.text = String.ofList (trim raw) := by rw [origin]
  rwa [PlacedLine.statement_of_text text] at encoded

theorem bytes_cases (hl : Layout.ofSource source = .ok layout) (hp : layout.Emits parts)
    {part : Part} (h : part ∈ parts) :
    (part.origin.kind = .instruction ∧ part.origin.statement.op.toList ≠ dataDirective ∧
        part.bytes.length = 2) ∨
      (part.origin.kind = .data ∧ part.origin.statement.op.toList = dataDirective ∧
        part.bytes.length = part.origin.statement.args.length) := by
  obtain ⟨raw, -, text, hkind⟩ := exists_raw hl hp h
  have encoded := hp.encoded part h
  rw [PlacedLine.kind_of_text text] at hkind ⊢
  rw [PlacedLine.statement_of_text text] at encoded ⊢
  rcases hkind with hkind | hkind
  · exact Or.inr ⟨hkind, op_of_data hkind, length_of_encode_data hkind encoded⟩
  · exact Or.inl ⟨hkind, op_of_encode_instruction hkind encoded,
      length_of_encode_instruction hkind encoded⟩

theorem length_bytes (hl : Layout.ofSource source = .ok layout) (hp : layout.Emits parts)
    {part : Part} (h : part ∈ parts) : part.bytes.length = part.origin.size := by
  rcases bytes_cases hl hp h with ⟨hk, -, hlen⟩ | ⟨hk, -, hlen⟩
  · rw [hlen, PlacedLine.size, hk]
  · rw [hlen, PlacedLine.size, hk]

theorem length_emitted {ps : List Part}
    (h : ∀ part ∈ ps, part.bytes.length = part.origin.size) :
    (emitted ps).length = totalSize (ps.map Part.origin) := by
  induction ps with
  | nil => rfl
  | cons part ps ih =>
    rw [List.forall_mem_cons] at h
    rw [emitted_cons, List.length_append, h.1, ih h.2, List.map_cons, totalSize]

/-- **The address of a line** is the number of bytes emitted before it. -/
theorem address_eq (hl : Layout.ofSource source = .ok layout) {before after : List Part} {part : Part}
    (hp : layout.Emits (before ++ part :: after)) :
    part.origin.address = (emitted before).length := by
  have contiguous := isContiguous_placed hl
  rw [← hp.origins, List.map_append, List.map_cons] at contiguous
  have sizes : ∀ q ∈ before, q.bytes.length = q.origin.size := by
    intro q hq
    exact length_bytes hl hp (List.mem_append_left _ hq)
  rw [contiguous.address_eq, length_emitted sizes, Nat.zero_add]

theorem totalSize_take_eq (hl : Layout.ofSource source = .ok layout) (hp : layout.Emits parts)
    (k : Nat) : totalSize (place 0 0 ((lines source.toList).take k)) =
      (emitted (parts.filter (·.origin.line < k))).length := by
  have sizes : ∀ q ∈ parts.filter (·.origin.line < k), q.bytes.length = q.origin.size := by
    intro q hq
    exact length_bytes hl hp (List.mem_filter.mp hq).1
  rw [totalSize_take hl, ← hp.origins, List.filter_map, length_emitted sizes]
  rfl

/-- **The address of a label** is the number of bytes emitted by the lines before it. -/
theorem mem_labels_iff_emitted (hl : Layout.ofSource source = .ok layout) (hp : layout.Emits parts)
    {name : String} {a : Nat} :
    (name, a) ∈ layout.labels ↔ ∃ k raw, (lines source.toList)[k]? = some raw ∧
      LineKind.ofLine raw = .label name ∧
        a = (emitted (parts.filter (·.origin.line < k))).length := by
  simp only [mem_labels_iff hl, totalSize_take_eq hl hp]

theorem pairwise_parts (hl : Layout.ofSource source = .ok layout) (hp : layout.Emits parts) :
    parts.Pairwise fun p q => p.origin.line < q.origin.line := by
  have increasing := pairwise_placed hl
  rwa [← hp.origins, List.pairwise_map] at increasing

end

end ByteMachine.Source
