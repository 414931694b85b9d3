import ByteMachine.Image
import ByteMachine.Register
import ByteMachine.Word

/-!
# Machine states

All that a running program can change. A pointer of twelve bits is read from the registers `r1` (its
high nibble) and `r0` (its low byte), so it always names a cell. The program counter has sixteen bits and
may leave the memory, where every byte reads as zero.

Main statements: `get_set_same`, `get_set_of_ne`, `pointer_lt`.
-/

namespace ByteMachine

/-- The state of the machine between two instructions. -/
structure State where
  /-- The address of the next instruction. -/
  pc : UInt16
  /-- The result of the last comparison. -/
  flag : Bool
  registers : Vector UInt8 16
  memory : Memory
  /-- The bytes written so far. -/
  output : Array UInt8
  /-- The number of bytes read so far. -/
  cursor : Nat
  /-- The return addresses of the calls that have not returned, the innermost last. -/
  calls : Array UInt16
  /-- The number of cycles begun so far, modulo 2^64. -/
  ticks : UInt64
  deriving DecidableEq

namespace State

/-- The state in which a program starts. -/
def ofMemory (memory : Memory) : State where
  pc := 0
  flag := false
  registers := Vector.replicate 16 0
  memory := memory
  output := #[]
  cursor := 0
  calls := #[]
  ticks := 0

/-- The value of a register. -/
def get (s : State) (r : Register) : UInt8 := s.registers[r]

/-- The state with a register set to a value. -/
def set (s : State) (r : Register) (value : UInt8) : State :=
  { s with registers := s.registers.set r value }

theorem get_set_same (s : State) (r : Register) (value : UInt8) : (s.set r value).get r = value := by
  simp [get, set]

theorem get_set_of_ne (s : State) {r q : Register} (value : UInt8) (h : r ≠ q) :
    (s.set r value).get q = s.get q := by
  have h' : r.val ≠ q.val := fun e => h (Fin.ext e)
  simp [get, set, Vector.getElem_set_ne, h']

/-- The cell that loads and stores refer to. -/
def pointer (s : State) : Nat :=
  ((s.get Register.pointerHigh).toNat * 256 + (s.get Register.pointerLow).toNat) % memorySize

theorem pointer_lt (s : State) : s.pointer < memorySize := Nat.mod_lt _ (by decide)

/-- The byte at an address, and zero outside the memory. -/
def byteAt (s : State) (address : Nat) : UInt8 := s.memory[address]?.getD 0

/-- The word at the program counter. -/
def fetch (s : State) : UInt16 := Word.ofBytes (s.byteAt s.pc.toNat) (s.byteAt (s.pc.toNat + 1))

/-- Behind the bytes that the memory was made of, every byte reads as zero. -/
theorem byteAt_of_memoryOf {s : State} {bytes : List UInt8} (hm : s.memory = Image.memoryOf bytes)
    (hsize : bytes.length ≤ memorySize) (address : Nat) :
    s.byteAt address = bytes[address]?.getD 0 := by
  rw [byteAt, hm]
  by_cases inside : address < memorySize
  · rw [Vector.getElem?_eq_getElem inside, Image.getElem_memoryOf, Option.getD_some]
  · have behind : bytes.length ≤ address := Nat.le_trans hsize (Nat.le_of_not_lt inside)
    rw [Vector.getElem?_eq_none (Nat.le_of_not_lt inside), List.getElem?_eq_none behind]

theorem fetch_eq_of_memoryOf {s : State} (bytes : List UInt8) (hm : s.memory = Image.memoryOf bytes)
    (hsize : bytes.length ≤ memorySize) :
    s.fetch = Word.ofBytes (bytes[s.pc.toNat]?.getD 0) (bytes[s.pc.toNat + 1]?.getD 0) := by
  rw [fetch, byteAt_of_memoryOf hm hsize, byteAt_of_memoryOf hm hsize]

/-- The word at the program counter is read from the bytes that the memory was made of. -/
theorem fetch_of_memoryOf {s : State} {bytes : List UInt8} {low high : UInt8}
    (hm : s.memory = Image.memoryOf bytes) (hsize : bytes.length ≤ memorySize)
    (hlow : bytes[s.pc.toNat]? = some low) (hhigh : bytes[s.pc.toNat + 1]? = some high) :
    s.fetch = Word.ofBytes low high := by
  rw [fetch_eq_of_memoryOf bytes hm hsize, hlow, hhigh, Option.getD_some, Option.getD_some]

/-- The program counter is inside the memory. -/
def isInMemory (s : State) : Bool := s.pc.toNat < memorySize

/-- The state with a cell set to a value; nothing changes outside the memory. -/
def poke (s : State) (address : Nat) (value : UInt8) : State :=
  { s with memory := s.memory.setIfInBounds address value }

/-- The state with the program counter at the following instruction. -/
def advance (s : State) : State := { s with pc := s.pc + 2 }

end State

end ByteMachine
