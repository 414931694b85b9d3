import ByteMachine.Instruction.Codec
import ByteMachine.Machine.Fault
import ByteMachine.Machine.State

/-!
# Execution of one instruction

The program counter moves on to the next instruction before the instruction is carried out, also when
it faults. Whether it faults is decided on the state before: a fault changes nothing else.

Main statements: `exec_of_none`, `exec_of_fault`, `exec_of_ok` give the three cases of `exec`, and
`exec_cases` says that there are no others.
-/

namespace ByteMachine

/-- Whether a program goes on after an instruction. -/
inductive Progress where
  | running
  | halted
  deriving DecidableEq, Repr

namespace State

/-- Why an instruction cannot be carried out in a state. -/
def fault? (s : State) (input : Array UInt8) : Instruction → Option Fault
  | .call _ => if callDepthMax ≤ s.calls.size then some .callsTooDeep else none
  | .ret => if s.calls.isEmpty then some (.noReturnAddress s.pc) else none
  | .read _ => if input.size ≤ s.cursor then some (.endOfInput s.pc) else none
  | _ => none

/-- The effect of an instruction that does not fault, once the program counter has moved on. -/
def perform (s : State) (input : Array UInt8) : Instruction → State
  | .halt | .nop => s
  | .setImmediate target value => s.set target value
  | .setRegister target source => s.set target (s.get source)
  | .locate address =>
    (s.set Register.pointerHigh ((address >>> 8) &&& 0xF).toUInt8).set Register.pointerLow
      address.toUInt8
  | .load target => s.set target (s.byteAt s.pointer)
  | .store source => s.poke s.pointer (s.get source)
  | .arithmetic op left right => s.set left (op.apply (s.get left) (s.get right))
  | .read target => { s.set target (input[s.cursor]?.getD 0) with cursor := s.cursor + 1 }
  | .write source => { s with output := s.output.push (s.get source) }
  | .compare relation left right => { s with flag := relation.holds (s.get left) (s.get right) }
  | .jump address => { s with pc := address }
  | .jumpIf address => if s.flag then { s with pc := address } else s
  | .call address => { s with calls := s.calls.push s.pc, pc := address }
  | .ret => { s with pc := s.calls.back?.getD s.pc, calls := s.calls.pop }

theorem perform_jumpIf (s : State) (input : Array UInt8) (address : UInt16) :
    s.perform input (.jumpIf address) = { s with pc := if s.flag then address else s.pc } := by
  unfold perform
  dsimp only
  split
  · rfl
  · rfl

/-- What a fetched word that is no instruction leads to. -/
def unsupported (s : State) : Fault :=
  let fields := Fields.ofWord s.fetch
  .unsupportedOperation s.pc fields.opcode fields.op

/-- Whether the program goes on after an instruction. -/
def progress (i : Instruction) : Progress := if i = .halt then .halted else .running

/-- Carries out the instruction at the program counter. -/
def exec (s : State) (input : Array UInt8) : State × Except Fault Progress :=
  match Instruction.ofWord? s.fetch with
  | none =>
    let fault := s.unsupported
    (s.advance, .error fault)
  | some i =>
    match s.fault? input i with
    | some fault => (s.advance, .error fault)
    | none => (s.advance.perform input i, .ok (progress i))

theorem exec_of_none {s : State} (input : Array UInt8) (h : Instruction.ofWord? s.fetch = none) :
    s.exec input = (s.advance, .error s.unsupported) := by
  simp [exec, h]

theorem exec_of_fault {s : State} {input : Array UInt8} {i : Instruction} {fault : Fault}
    (h : Instruction.ofWord? s.fetch = some i) (hf : s.fault? input i = some fault) :
    s.exec input = (s.advance, .error fault) := by
  simp [exec, h, hf]

theorem exec_of_ok {s : State} {input : Array UInt8} {i : Instruction}
    (h : Instruction.ofWord? s.fetch = some i) (hf : s.fault? input i = none) :
    s.exec input = (s.advance.perform input i, .ok (progress i)) := by
  simp [exec, h, hf]

/-- An instruction of a program in memory is carried out. -/
theorem exec_of_memoryOf {s : State} {input : Array UInt8} (bytes : List UInt8) {i : Instruction}
    (hm : s.memory = Image.memoryOf bytes) (hsize : bytes.length ≤ memorySize)
    (hi : Instruction.ofWord?
      (Word.ofBytes (bytes[s.pc.toNat]?.getD 0) (bytes[s.pc.toNat + 1]?.getD 0)) = some i)
    (hf : s.fault? input i = none) :
    s.exec input = (s.advance.perform input i, .ok (progress i)) :=
  exec_of_ok (by rw [fetch_eq_of_memoryOf bytes hm hsize, hi]) hf

/-- What an instruction can come to. -/
theorem exec_cases (s : State) (input : Array UInt8) :
    (Instruction.ofWord? s.fetch = none ∧ s.exec input = (s.advance, .error s.unsupported)) ∨
      ∃ i, Instruction.ofWord? s.fetch = some i ∧
        ((∃ fault, s.fault? input i = some fault ∧ s.exec input = (s.advance, .error fault)) ∨
          (s.fault? input i = none ∧
            s.exec input = (s.advance.perform input i, .ok (progress i)))) := by
  cases hi : Instruction.ofWord? s.fetch with
  | none => exact .inl ⟨rfl, exec_of_none input hi⟩
  | some i =>
    cases hf : s.fault? input i with
    | some fault => exact .inr ⟨i, rfl, .inl ⟨fault, hf, exec_of_fault hi hf⟩⟩
    | none => exact .inr ⟨i, rfl, .inr ⟨hf, exec_of_ok hi hf⟩⟩

/-- The state after some instructions, whatever came of them. -/
def execTimes (s : State) (input : Array UInt8) : Nat → State
  | 0 => s
  | n + 1 => ((s.execTimes input n).exec input).1

end State

end ByteMachine
