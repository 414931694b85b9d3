/-!
# Instruction words

An instruction is a word of sixteen bits, stored with its low byte first. The lowest nibble is the
opcode; the other three are read in ways that overlap: as three nibbles, as a nibble and a byte, or as
an address of twelve bits.

Main statement: `ofBytes_toBytes`.
-/

namespace ByteMachine

/-- All readings of a word at once; which of them matter depends on the opcode. -/
structure Fields where
  /-- Bits 0 to 3. -/
  opcode : UInt8
  /-- Bits 4 to 7. -/
  op : UInt8
  /-- Bits 8 to 15. -/
  value : UInt8
  /-- Bits 4 to 15. -/
  address : UInt16
  /-- Bits 8 to 11. -/
  arg1 : UInt8
  /-- Bits 12 to 15. -/
  arg2 : UInt8
  deriving DecidableEq, Repr

/-- The readings of a word. -/
def Fields.ofWord (w : UInt16) : Fields where
  opcode := (w &&& 0xF).toUInt8
  op := ((w >>> 4) &&& 0xF).toUInt8
  value := (w >>> 8).toUInt8
  address := w >>> 4
  arg1 := ((w >>> 8) &&& 0xF).toUInt8
  arg2 := ((w >>> 12) &&& 0xF).toUInt8

namespace Word

/-- The low four bits of a byte. -/
def nibble (b : UInt8) : UInt16 := b.toUInt16 &&& 0xF

/-- A word of four nibbles, the lowest first. -/
def ofNibbles (a b c d : UInt8) : UInt16 :=
  nibble a ||| (nibble b <<< 4) ||| (nibble c <<< 8) ||| (nibble d <<< 12)

/-- A word of two nibbles and a byte, the lowest first. -/
def ofNibblesByte (a b byte : UInt8) : UInt16 :=
  nibble a ||| (nibble b <<< 4) ||| (byte.toUInt16 <<< 8)

/-- A word of a nibble and the low twelve bits of an address. -/
def ofNibbleAddress (a : UInt8) (address : UInt16) : UInt16 :=
  nibble a ||| ((address &&& 0x0FFF) <<< 4)

/-- The two bytes of a word, the low one first. -/
def toBytes (w : UInt16) : List UInt8 := [w.toUInt8, (w >>> 8).toUInt8]

/-- The word of a low and a high byte. -/
def ofBytes (low high : UInt8) : UInt16 := low.toUInt16 ||| (high.toUInt16 <<< 8)

theorem length_toBytes (w : UInt16) : (toBytes w).length = 2 := rfl

theorem ofBytes_toBytes (w : UInt16) : ofBytes w.toUInt8 (w >>> 8).toUInt8 = w := by
  apply UInt16.toBitVec_inj.mp
  ext i hi
  simp only [ofBytes, UInt16.toBitVec_or, UInt16.toBitVec_shiftLeft, UInt8.toBitVec_toUInt16,
    UInt16.toBitVec_toUInt8, UInt16.toBitVec_shiftRight]
  by_cases h : i < 8
  · simp [h, BitVec.getLsbD_eq_getElem hi]
  · have low : 8 + (i - 8) = i := by omega
    have high : i - 8 < 8 := by omega
    simp [h, low, high, BitVec.getLsbD_eq_getElem hi]

end Word

end ByteMachine
