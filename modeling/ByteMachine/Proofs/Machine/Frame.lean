import ByteMachine.Proofs.Machine.Bounds

/-!
# What a cycle changes

Each instruction may change a few parts of the state and leaves all others alone. `State.Frame` says
which, part by part, from the state before the cycle to the state after it. The two may well share the
bytes that they are about: a register may be copied to itself, a load may go to a register of its own
pointer, and a store may overwrite the word of its own instruction. What is read is always read from the
state before.

* `frame_perform` is the effect of an instruction that does not fault.
* `frame_exec` is a cycle: it has the effect of the instruction at the program counter, and it halts at a
  halt alone, which does nothing.
-/

namespace ByteMachine

/-- The registers that an instruction may change. -/
def Instruction.targets : Instruction → List Register
  | .setImmediate target _ | .setRegister target _ | .load target | .arithmetic _ target _
  | .read target => [target]
  | .locate _ => [Register.pointerLow, Register.pointerHigh]
  | .halt | .store _ | .write _ | .compare .. | .jump _ | .jumpIf _ | .call _ | .ret | .nop => []

namespace State

/-! ### The parts of the state -/

/-- A store sets the cell at the pointer to the register. Nothing else changes the memory. -/
def MemoryFrame (s t : State) : Instruction → Prop
  | .store source =>
    ∀ (a : Nat) (_ : a < memorySize), t.memory[a] = if a = s.pointer then s.get source else s.memory[a]
  | _ => t.memory = s.memory

/-- A comparison sets the flag. -/
def FlagFrame (s t : State) : Instruction → Prop
  | .compare relation left right => t.flag = relation.holds (s.get left) (s.get right)
  | _ => t.flag = s.flag

/-- A write appends the register. -/
def OutputFrame (s t : State) : Instruction → Prop
  | .write source => t.output = s.output.push (s.get source)
  | _ => t.output = s.output

/-- A read goes on by one byte. -/
def CursorFrame (s t : State) : Instruction → Prop
  | .read _ => t.cursor = s.cursor + 1
  | _ => t.cursor = s.cursor

/-- A call pushes the address behind it, and a return pops the address that it goes to. -/
def CallsFrame (s t : State) : Instruction → Prop
  | .call _ => t.calls = s.calls.push (s.pc + 2)
  | .ret => s.calls = t.calls.push t.pc
  | _ => t.calls = s.calls

/-- The program counter moves on, modulo 2^16, where the instruction does not go elsewhere. -/
def PcFrame (s t : State) : Instruction → Prop
  | .jump a | .call a => t.pc = a
  | .jumpIf a => t.pc = if s.flag then a else s.pc + 2
  | .ret => s.calls.back? = some t.pc
  | _ => t.pc = s.pc + 2

/-- **What an instruction changes**, from the state before the cycle to the state after it. The number of
cells is that of every memory. -/
structure Frame (i : Instruction) (s t : State) : Prop where
  ticks_eq : t.ticks = s.ticks
  memory : MemoryFrame s t i
  get_eq : ∀ r ∉ i.targets, t.get r = s.get r
  pointer_eq : ∀ a, i = .locate a → t.pointer = a.toNat
  flag : FlagFrame s t i
  output : OutputFrame s t i
  cursor : CursorFrame s t i
  calls : CallsFrame s t i
  pc : PcFrame s t i

variable {s t : State} {input : Array UInt8} {i : Instruction} {p : Progress}

theorem getElem_poke (s : State) (address : Nat) (value : UInt8) {a : Nat} (ha : a < memorySize) :
    (s.poke address value).memory[a] = if a = address then value else s.memory[a] := by
  simp only [poke, Vector.getElem_setIfInBounds, eq_comm]

theorem get_perform_locate (s : State) (input : Array UInt8) (a : UInt16) :
    ((s.perform input (.locate a)).get Register.pointerLow).toNat = a.toNat % 256 ∧
      ((s.perform input (.locate a)).get Register.pointerHigh).toNat = a.toNat / 256 % 16 := by
  have ne : Register.pointerHigh ≠ Register.pointerLow := by decide
  have low : (s.perform input (.locate a)).get Register.pointerLow = a.toUInt8 := get_set_same _ _ _
  have high : (s.perform input (.locate a)).get Register.pointerHigh = (a >>> 8 &&& 0xF).toUInt8 := by
    rw [perform, get_set_of_ne _ _ ne.symm, get_set_same]
  have shifted : (a >>> 8).toNat = a.toNat / 256 := by
    rw [UInt16.toNat_shiftRight, Nat.shiftRight_eq_div_pow]
    rfl
  rw [low, high, Word.toUInt8_and, shifted, UInt16.toNat_toUInt8, UInt8.toNat_ofNat']
  omega

theorem pointer_perform_locate (s : State) (input : Array UInt8) {a : UInt16}
    (ha : a.toNat < memorySize) : (s.perform input (.locate a)).pointer = a.toNat := by
  obtain ⟨low, high⟩ := get_perform_locate s input a
  rw [pointer, low, high]
  unfold memorySize at ha ⊢
  omega

theorem get_perform_of_notMem {r : Register} (h : r ∉ i.targets) :
    (s.perform input i).get r = s.get r := by
  cases i with
  | setImmediate target | setRegister target | load target | arithmetic _ target | read target =>
    have ne : target ≠ r := by
      rintro rfl
      exact h (List.mem_singleton_self _)
    exact get_set_of_ne s _ ne
  | locate a =>
    have high : Register.pointerHigh ≠ r := by
      rintro rfl
      exact h (by simp [Instruction.targets])
    have low : Register.pointerLow ≠ r := by
      rintro rfl
      exact h (by simp [Instruction.targets])
    rw [perform, get_set_of_ne _ _ low, get_set_of_ne _ _ high]
  | jumpIf a =>
    rw [perform_jumpIf]
    rfl
  | _ => rfl

/-! ### One cycle -/

/-- **The effect of an instruction** that does not fault. -/
theorem frame_perform (ha : ∀ a, i.address? = some a → a.toNat < memorySize)
    (hf : s.fault? input i = none) : Frame i s (s.advance.perform input i) := by
  have get : ∀ r ∉ i.targets, (s.advance.perform input i).get r = s.get r :=
    fun r hr => get_perform_of_notMem hr
  have pointer : ∀ a, i = .locate a → (s.advance.perform input i).pointer = a.toNat := by
    rintro a rfl
    exact pointer_perform_locate s.advance input (ha a rfl)
  cases i with
  | store source =>
    have cells (a : Nat) (ha : a < memorySize) :
        (s.poke s.pointer (s.get source)).memory[a] =
          if a = s.pointer then s.get source else s.memory[a] := getElem_poke _ _ _ ha
    exact ⟨rfl, cells, get, pointer, rfl, rfl, rfl, rfl, rfl⟩
  | jumpIf a =>
    rw [perform_jumpIf] at get pointer ⊢
    exact ⟨rfl, rfl, get, pointer, rfl, rfl, rfl, rfl, rfl⟩
  | ret =>
    obtain ⟨outer, a, hcalls⟩ := exists_calls_of_ret hf
    have popped : s.advance.perform input .ret = { s with pc := a, calls := outer } := by
      simp [perform, advance, hcalls]
    have back : s.calls.back? = some a := by rw [hcalls, Array.back?_push]
    rw [popped] at get pointer ⊢
    exact ⟨rfl, rfl, get, pointer, rfl, rfl, rfl, hcalls, back⟩
  | _ => exact ⟨rfl, rfl, get, pointer, rfl, rfl, rfl, rfl, rfl⟩

theorem exists_frame_of_exec (h : s.exec input = (t, .ok p)) :
    ∃ i, Instruction.ofWord? s.fetch = some i ∧ p = progress i ∧ Frame i s t := by
  rcases s.exec_cases input with ⟨-, he⟩ | ⟨i, hi, ⟨fault, -, he⟩ | ⟨hf, he⟩⟩
  · rw [he] at h
    cases h
  · rw [he] at h
    cases h
  · rw [he, Prod.mk.injEq, Except.ok.injEq] at h
    obtain ⟨rfl, rfl⟩ := h
    exact ⟨i, hi, rfl, frame_perform (fun a => Instruction.address_lt_of_ofWord? hi) hf⟩

theorem progress_eq_halted_iff : progress i = .halted ↔ i = .halt := by
  unfold progress
  split
  · exact iff_of_true rfl ‹_›
  · exact iff_of_false nofun ‹_›

/-- **The frame of a cycle**: whatever the state and the input, a cycle that does not fault changes those
parts of the state that are the instruction's own. It halts the program exactly if the instruction is a
halt, and then the program counter alone has changed. -/
theorem frame_exec (s t : State) (input : Array UInt8) (p : Progress)
    (h : s.exec input = (t, .ok p)) :
    ∃ i, Instruction.ofWord? s.fetch = some i ∧ Frame i s t ∧ (p = .halted ↔ i = .halt) ∧
      (p = .halted → t = { s with pc := s.pc + 2 }) := by
  obtain ⟨i, hi, rfl, frame⟩ := exists_frame_of_exec h
  refine ⟨i, hi, frame, progress_eq_halted_iff, fun halted => ?_⟩
  rw [halted] at h
  exact (exec_eq_halted h).2

/-- A program that stores the low byte of its pointer into the second byte of its own word. -/
def overwriting : State := (State.ofMemory (Image.memoryOf [0x14, 0x00])).set Register.pointerLow 1

/-- The word of the instruction that runs is among the cells that a cycle may change. -/
theorem frame_exec_overwriting :
    ∃ t, overwriting.exec #[] = (t, .ok .running) ∧ t.memory[0]? = some 0x14 ∧
      t.memory[1]? = some 0x01 ∧ t.pointer = 1 ∧ t.output = #[] ∧ t.pc = 2 := by
  have word : overwriting.fetch = Word.ofBytes 0x14 0x00 := fetch_of_memoryOf rfl (by decide) rfl rfl
  have store : Instruction.ofWord? overwriting.fetch = some (.store Register.pointerLow) := by
    rw [word]
    decide
  have exec : overwriting.exec #[] = (_, .ok .running) := exec_of_ok store rfl
  obtain ⟨i, hi, frame, -, -⟩ := frame_exec _ _ _ _ exec
  obtain rfl : Instruction.store Register.pointerLow = i := Option.some.inj (store.symm.trans hi)
  have inside : 1 < memorySize := by decide
  have first := frame.memory 0 (Nat.lt_of_succ_lt inside)
  have second := frame.memory 1 inside
  refine ⟨_, exec, ?_, ?_, ?_, frame.output, frame.pc⟩
  · rw [Vector.getElem?_eq_getElem (Nat.lt_of_succ_lt inside), first, if_neg (by decide)]
    exact congrArg some (Image.getElem_memoryOf _ 0 (Nat.lt_of_succ_lt inside))
  · rw [Vector.getElem?_eq_getElem inside, second, if_pos (by decide)]
    exact congrArg some (get_set_same _ Register.pointerLow _)
  · rw [pointer, frame.get_eq _ (by decide), frame.get_eq _ (by decide)]
    decide

end State

end ByteMachine
