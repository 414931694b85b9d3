import ByteMachine.Proofs.Source.Printing

/-!
# Programs that fit into memory

The tag counts for the size of an image, but has no place in memory: there is room for the bytes of a
source text if they are at most as many as the cells less the length of the tag. A text that needs more
is assembled all the same, and its image is turned down when it is loaded (`load_of_assemble`). Lines of
zeros reach every size (`assemble_zeros`), and so both sides of the bound.
-/

namespace ByteMachine.Source

open Text

/-! ### Lines of zeros -/

/-- A data line of zeros. -/
def zeros (n : Nat) : String := String.ofList (Statement.render ⟨".DATA", List.replicate n "0"⟩)

theorem isLine_zeros (n : Nat) : Item.IsLine (zeros n) (.data (List.replicate n 0)) := by
  have zero : Operand.Spells "0" (.number (0 : UInt8).toNat) :=
    Operand.spells_iff_isWritten.mpr (by decide +kernel : numeral? "0".toList = some 0)
  have all : List.Forall₂ Operand.Spells (List.replicate n "0")
      (Item.operands (.data (List.replicate n 0))) := by
    rw [Item.operands, List.map_replicate]
    induction n with
    | zero => exact .nil
    | succ n ih => exact .cons zero ih
  exact ⟨_, 0, all, by simp [zeros, Item.op, dataDirective]⟩

theorem assemble_zeros (n : Nat) : ∃ program, assemble (zeros n) = .ok program ∧
    program.image = Image.tag ++ List.replicate n 0 := by
  have line := isLine_zeros n
  have single : lines (zeros n).toList = [zeros n].map String.toList :=
    lines_eq_singleton line.isSolid.1 line.isSolid.2.1
  have fits : ∀ item ∈ [Item.data (List.replicate n 0)], item.Fits := by simp [Item.Fits]
  refine ⟨_, assemble_of_isLine single fits (.cons line .nil), ?_⟩
  simp [Image.ofPayload, Item.bytes]

/-! ### Sizes of images -/

theorem length_image {source : String} {program : Program} (h : assemble source = .ok program) :
    program.image.length = Image.tag.length + totalSize (placedLines source) := by
  obtain ⟨layout, parts, hl, hp, rfl⟩ := assemble_eq_ok_iff_emits.mp h
  have size : (emitted parts).length = totalSize layout.placed := by
    rw [length_emitted fun part hpart => length_bytes hl hp hpart, hp.origins]
  obtain ⟨-, rfl⟩ := Layout.ofSource_eq_ok_iff.mp hl
  rw [Image.ofPayload, List.length_append, size, totalSize_filter]

theorem length_payload {source : String} {program : Program} (h : assemble source = .ok program) :
    (Image.payload program.image).length = totalSize (placedLines source) := by
  rw [Image.payload, List.length_drop, length_image h, Nat.add_sub_cancel_left]

/-- **An assembled image can be loaded exactly if it fits**: up to 4089 bytes behind the tag go to the
start of the memory, and more are too many. -/
theorem load_of_assemble {source : String} {program : Program} (h : assemble source = .ok program) :
    program.image.length = 7 + totalSize (placedLines source) ∧
      (totalSize (placedLines source) ≤ 4089 → program.image.length ≤ 4096 ∧
        Image.load program.image = .ok (Image.memoryOf (Image.payload program.image))) ∧
      (4089 < totalSize (placedLines source) →
        Image.load program.image = .error (.tooLarge program.image.length)) := by
  have length : program.image.length = 7 + totalSize (placedLines source) := length_image h
  refine ⟨length, fun fits => ?_, fun beyond => ?_⟩
  · have small : program.image.length ≤ memorySize := by
      rw [length, memorySize]
      omega
    obtain ⟨layout, parts, -, -, rfl⟩ := assemble_eq_ok_iff_emits.mp h
    refine ⟨small, ?_⟩
    rw [Image.payload_ofPayload]
    exact Image.load_eq_ok small
  · have large : memorySize < program.image.length := by
      rw [length, memorySize]
      omega
    exact Image.load_eq_tooLarge_iff.mpr ⟨large, rfl⟩

/-- As many zeros as there is room for. -/
theorem load_of_assemble_zeros : ∃ program, assemble (zeros 4089) = .ok program ∧
    program.image.length = 4096 ∧
      Image.load program.image = .ok (Image.memoryOf (Image.payload program.image)) := by
  obtain ⟨program, h, image⟩ := assemble_zeros 4089
  have full : program.image.length = 4096 := by
    rw [image, List.length_append, List.length_replicate]
    rfl
  obtain ⟨length, fits, -⟩ := load_of_assemble h
  exact ⟨program, h, full, (fits (by omega)).2⟩

/-- One zero more. -/
theorem assemble_zeros_too_large : ∃ program, assemble (zeros 4090) = .ok program ∧
    4096 < program.image.length ∧ Image.load program.image = .error (.tooLarge 4097) := by
  obtain ⟨program, h, image⟩ := assemble_zeros 4090
  have length : program.image.length = 4097 := by
    rw [image, List.length_append, List.length_replicate]
    rfl
  have large : memorySize < program.image.length := by
    rw [length, memorySize]
    decide
  exact ⟨program, h, large, Image.load_eq_tooLarge_iff.mpr ⟨large, length.symm⟩⟩

end ByteMachine.Source
