import ByteMachine.Proofs.Source.Parts
import ByteMachine.Proofs.Source.Rendering
import ByteMachine.Proofs.Text.Lines

/-!
# Lines that stand for each other

A line can be replaced by one of the same kind and size that stands for the same bytes: every other line
keeps its address, so the labels are the same, and a program that assembles gives the same image
(`assemble_replace`). For an operand in the form of a number there is a text with the line replaced
(`exists_withOperand`).
-/

namespace ByteMachine.Source

open Text

/-- The second line can be put in the place of the first, among the given labels. -/
structure Replaces (labels : Labels) (raw raw' : List Char) : Prop where
  kind_eq : LineKind.ofLine raw' = LineKind.ofLine raw
  length_eq : (Statement.ofLine raw').args.length = (Statement.ofLine raw).args.length
  encode_of : ∀ bytes, encode labels (Statement.ofLine raw) = .ok bytes →
    encode labels (Statement.ofLine raw') = .ok bytes

theorem Replaces.refl (labels : Labels) (raw : List Char) : Replaces labels raw raw :=
  ⟨rfl, rfl, fun _ => id⟩

theorem forall₂_set {labels : Labels} {raws : List (List Char)} {k : Nat} {raw raw' : List Char}
    (hk : raws[k]? = some raw) (h : Replaces labels raw raw') :
    List.Forall₂ (Replaces labels) raws (raws.set k raw') := by
  induction raws generalizing k with
  | nil => exact .nil
  | cons first raws ih =>
    cases k with
    | zero =>
      obtain rfl : first = raw := by simpa using hk
      exact .cons h (List.forall₂_same.mpr fun _ _ => .refl ..)
    | succ k => exact .cons (.refl ..) (ih hk)

/-! ### Replaced lines in their places -/

/-- The placed line can be put in the place of the first. -/
structure PlacedLine.Replaces (labels : Labels) (p p' : PlacedLine) : Prop where
  definition?_eq : p'.definition? = p.definition?
  holdsCode_eq : p'.holdsCode = p.holdsCode
  encode_of : ∀ bytes, encode labels p.statement = .ok bytes → encode labels p'.statement = .ok bytes

section
variable {labels : Labels}

theorem Replaces.placed {raw raw' : List Char} (h : Replaces labels raw raw') (line address : Nat) :
    PlacedLine.Replaces labels ⟨line, address, String.ofList (trim raw)⟩
        ⟨line, address, String.ofList (trim raw')⟩ ∧
      PlacedLine.size ⟨line, address, String.ofList (trim raw')⟩ =
        PlacedLine.size ⟨line, address, String.ofList (trim raw)⟩ := by
  have kind : PlacedLine.kind ⟨line, address, String.ofList (trim raw')⟩ =
      PlacedLine.kind ⟨line, address, String.ofList (trim raw)⟩ := by
    rw [PlacedLine.kind_of_text rfl, PlacedLine.kind_of_text rfl, h.kind_eq]
  refine ⟨⟨?_, ?_, ?_⟩, ?_⟩
  · rw [PlacedLine.definition?, PlacedLine.definition?, kind]
  · rw [PlacedLine.holdsCode, PlacedLine.holdsCode, kind]
  · rw [PlacedLine.statement_of_text rfl, PlacedLine.statement_of_text rfl]
    exact h.encode_of
  · rw [PlacedLine.size, PlacedLine.size, kind, PlacedLine.statement_of_text rfl,
      PlacedLine.statement_of_text rfl, h.length_eq]

theorem forall₂_place {raws raws' : List (List Char)} (h : List.Forall₂ (Replaces labels) raws raws')
    (line address : Nat) :
    List.Forall₂ (PlacedLine.Replaces labels) (place line address raws) (place line address raws') := by
  induction h generalizing line address with
  | nil => exact .nil
  | cons hr _ ih =>
    obtain ⟨placed, size⟩ := hr.placed line address
    rw [place, place, size]
    exact .cons placed (ih _ _)

theorem forall₂_encodeLine {ps ps' : List PlacedLine} {bss : List (List UInt8)}
    (h : List.Forall₂ (PlacedLine.Replaces labels) ps ps')
    (hb : List.Forall₂ (fun p bytes => encodeLine labels p = .ok bytes) ps bss) :
    List.Forall₂ (fun p bytes => encodeLine labels p = .ok bytes) ps' bss := by
  induction h generalizing bss with
  | nil => exact hb
  | cons hr _ ih =>
    cases hb with
    | cons hp hb =>
      have encoded := hr.encode_of _ (encodeLine_eq_ok_iff.mp hp)
      exact .cons (encodeLine_eq_ok_iff.mpr encoded) (ih hb)

end

/-- **Replaced lines give the same image**, and the same labels. -/
theorem assemble_replace {source source' : String} {program : Program}
    (h : assemble source = .ok program)
    (hr : List.Forall₂ (Replaces program.labels) (lines source.toList) (lines source'.toList)) :
    ∃ program', assemble source' = .ok program' ∧ program'.image = program.image ∧
      program'.labels = program.labels := by
  obtain ⟨layout, bss, hl, hb, rfl⟩ := assemble_eq_ok_iff.mp h
  obtain ⟨distinct, rfl⟩ := Layout.ofSource_eq_ok_iff.mp hl
  have places := forall₂_place hr 0 0
  have labels : (placedLines source').filterMap PlacedLine.definition? =
      (placedLines source).filterMap PlacedLine.definition? :=
    filterMap_definition?_congr (places.imp fun _ _ hp => hp.definition?_eq)
  have layout' : Layout.ofSource source' = .ok ⟨(placedLines source).filterMap PlacedLine.definition?,
      (placedLines source').filter PlacedLine.holdsCode⟩ := by
    refine Layout.ofSource_eq_ok_iff.mpr ⟨?_, by rw [labels]⟩
    rw [redefinition?_eq_none_iff] at distinct ⊢
    rwa [labels]
  have bytes := forall₂_encodeLine
    (forall₂_filter_holdsCode (fun _ _ hp => hp.holdsCode_eq) places) (mapM_eq_ok_iff.mp hb)
  exact ⟨_, assemble_eq_ok_iff.mpr ⟨_, bss, layout', mapM_eq_ok_iff.mpr bytes, rfl⟩, rfl, rfl⟩

/-! ### A line with another operand -/

/-- The second text is the first one but for line `k`, which is the operation with one operand. -/
def WithOperand (source source' : String) (k : Nat) (op operand : String) : Prop :=
  ∃ raw, lines source'.toList = (lines source.toList).set k raw ∧
    Statement.ofLine raw = ⟨op, [operand]⟩

theorem exists_source_set (source : String) (k : Nat) {raw : List Char} (h : '\n' ∉ raw) :
    ∃ source' : String, lines source'.toList = (lines source.toList).set k raw := by
  refine ⟨String.ofList (unlines ((lines source.toList).set k raw)), ?_⟩
  rw [String.toList_ofList]
  refine lines_unlines fun l hl => ?_
  rcases List.mem_or_eq_of_mem_set hl with hl | rfl
  · exact not_mem_of_mem_lines _ l hl
  · exact h

theorem exists_withOperand (source : String) (k : Nat) {op operand : String} {n : Nat}
    (hop : IsOperation op) (h : numeral? operand.toList = some n) :
    ∃ source', WithOperand source source' k op operand := by
  have normal : Statement.IsNormal ⟨op, [operand]⟩ := by
    refine ⟨hop.solid, fun hnil => absurd (String.toList_eq_nil_iff.mpr hnil) hop.ne_nil, ?_⟩
    intro s hs
    obtain rfl := List.mem_singleton.mp hs
    exact Statement.isArgument_of_numeral? h
  have noNewline := Statement.not_mem_render normal (c := '\n') (by decide) (by decide)
  obtain ⟨source', hsource⟩ := exists_source_set source k noNewline
  exact ⟨source', _, hsource, Statement.ofLine_render normal⟩

end ByteMachine.Source
