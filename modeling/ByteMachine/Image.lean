import ByteMachine.Text.Numeral

/-!
# Executable images

An image is a tag followed by the bytes that go to the start of memory. With its tag it is at most as
long as the memory.

Main statements: `load_eq_tooLarge_iff`, `load_eq_ok`.
-/

namespace ByteMachine

/-- The number of cells of the memory, which holds program and data. -/
def memorySize : Nat := 4096

/-- The largest address that an instruction can hold. -/
def addressMax : UInt16 := 0x0FFF

/-- The memory of the machine. -/
abbrev Memory := Vector UInt8 memorySize

namespace Image

/-- The tag that every image starts with, the characters `.SLEDE8`. -/
def tag : List UInt8 := [0x2E, 0x53, 0x4C, 0x45, 0x44, 0x45, 0x38]

/-- Why an image cannot be loaded. -/
inductive LoadError where
  /-- The image is longer than the memory. -/
  | tooLarge (size : Nat)
  /-- The image does not start with the tag. -/
  | unsupported
  deriving DecidableEq, Repr

/-- The text of the error. -/
def LoadError.message : LoadError → String
  | .tooLarge size =>
    "Program does not fit in memory: " ++ Text.decimal size ++ " bytes (max " ++
      Text.decimal memorySize ++ ")"
  | .unsupported => "Unsupported executable"

/-- The image of a payload. -/
def ofPayload (payload : List UInt8) : List UInt8 := tag ++ payload

/-- The bytes after the place of the tag. -/
def payload (image : List UInt8) : List UInt8 := image.drop tag.length

/-- The memory that starts with the given bytes, as many as fit, and is zero after them. -/
def memoryOf (bytes : List UInt8) : Memory :=
  let cells := bytes.toArray
  Vector.ofFn fun i => cells[i.val]?.getD 0

/-- The memory that an image describes. -/
def load (image : List UInt8) : Except LoadError Memory :=
  if memorySize < image.length then .error (.tooLarge image.length)
  else if tag.isPrefixOf image then .ok (memoryOf (payload image))
  else .error .unsupported

theorem payload_ofPayload (bytes : List UInt8) : payload (ofPayload bytes) = bytes := by
  simp [payload, ofPayload]

theorem getElem_memoryOf (bytes : List UInt8) (i : Nat) (h : i < memorySize) :
    (memoryOf bytes)[i] = bytes[i]?.getD 0 := by
  simp [memoryOf]

theorem getElem?_memoryOf {bytes : List UInt8} {i : Nat} {b : UInt8} (h : bytes[i]? = some b)
    (hi : i < memorySize) : (memoryOf bytes)[i]? = some b := by
  rw [Vector.getElem?_eq_getElem hi, getElem_memoryOf, h, Option.getD_some]

theorem set_memoryOf (bytes : List UInt8) {i : Nat} (h : i < bytes.length) (b : UInt8) :
    (memoryOf bytes).setIfInBounds i b = memoryOf (bytes.set i b) := by
  ext j hj
  rw [Vector.getElem_setIfInBounds, getElem_memoryOf, getElem_memoryOf, List.getElem?_set, if_pos h]
  split
  · rfl
  · rfl

theorem load_eq_tooLarge_iff {image : List UInt8} {n : Nat} :
    load image = .error (.tooLarge n) ↔ memorySize < image.length ∧ n = image.length := by
  unfold load
  split
  · rename_i h
    simp [h, eq_comm]
  · rename_i h
    split <;> simp [h]

theorem load_eq_ok {bytes : List UInt8} (h : (ofPayload bytes).length ≤ memorySize) :
    load (ofPayload bytes) = .ok (memoryOf bytes) := by
  have tagged : tag.isPrefixOf (ofPayload bytes) = true := by
    simp [ofPayload]
  rw [load, if_neg (Nat.not_lt.mpr h), if_pos tagged, payload_ofPayload]

end Image

end ByteMachine
