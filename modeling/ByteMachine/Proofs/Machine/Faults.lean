import ByteMachine.Machine.Exec
import ByteMachine.Proofs.Instruction.Readings

/-!
# When an instruction faults

`State.Faults` says of a state and an input which fault there is, if there is one. It depends on the word
at the program counter and on the open calls or on the bytes that have been read, and on nothing else. A
fault that names an address names that of the instruction, though the program counter has moved on when it
is raised.

Main statement: `exec_eq_error_iff` (an instruction faults exactly then, and moves the program counter).
-/

namespace ByteMachine

namespace State

/-- **The faults of a state.** -/
inductive Faults (s : State) (input : Array UInt8) : Fault → Prop
  /-- The word at the program counter is no instruction. -/
  | unsupported (h : Instruction.ofWord? s.fetch = none) :
    Faults s input (.unsupportedOperation s.pc (UInt8.ofNat (s.fetch.toNat % 16))
      (UInt8.ofNat (s.fetch.toNat / 16 % 16)))
  /-- It is a call, and there is no room for its return address. -/
  | tooDeep {a : UInt16} (h : Instruction.ofWord? s.fetch = some (.call a))
    (deep : 1000 ≤ s.calls.size) : Faults s input .callsTooDeep
  /-- It is a return, and there is no call. -/
  | noReturn (h : Instruction.ofWord? s.fetch = some .ret) (outside : s.calls = #[]) :
    Faults s input (.noReturnAddress s.pc)
  /-- It is a read, and all bytes have been read. -/
  | endOfInput {target : Register} (h : Instruction.ofWord? s.fetch = some (.read target))
    (behind : input.size ≤ s.cursor) : Faults s input (.endOfInput s.pc)

variable {s t : State} {input : Array UInt8} {fault : Fault} {i : Instruction}

theorem unsupported_eq (s : State) :
    s.unsupported = .unsupportedOperation s.pc (UInt8.ofNat (s.fetch.toNat % 16))
      (UInt8.ofNat (s.fetch.toNat / 16 % 16)) := by
  rw [unsupported, Fields.ofWord, Word.toUInt8_and, Word.toUInt8_and, Word.toNat_shiftRight_four]

theorem faults_of_fault? (hi : Instruction.ofWord? s.fetch = some i)
    (hf : s.fault? input i = some fault) : s.Faults input fault := by
  cases i with
  | call a =>
    obtain ⟨deep, raised⟩ := Option.ite_none_right_eq_some.mp hf
    cases raised
    exact .tooDeep hi deep
  | ret =>
    obtain ⟨outside, raised⟩ := Option.ite_none_right_eq_some.mp hf
    cases raised
    exact .noReturn hi (Array.isEmpty_iff.mp outside)
  | read target =>
    obtain ⟨behind, raised⟩ := Option.ite_none_right_eq_some.mp hf
    cases raised
    exact .endOfInput hi behind
  | _ => cases hf

theorem Faults.exec_eq (h : s.Faults input fault) : s.exec input = (s.advance, .error fault) := by
  cases h with
  | unsupported h => rw [exec_of_none input h, unsupported_eq]
  | tooDeep h deep => exact exec_of_fault h (if_pos deep)
  | noReturn h outside => exact exec_of_fault h (if_pos (Array.isEmpty_iff.mpr outside))
  | endOfInput h behind => exact exec_of_fault h (if_pos behind)

/-- **An instruction faults** exactly with the fault of the state, and moves the program counter on. -/
theorem exec_eq_error_iff :
    s.exec input = (t, .error fault) ↔ s.Faults input fault ∧ t = { s with pc := s.pc + 2 } := by
  constructor
  · intro h
    rcases s.exec_cases input with ⟨hi, he⟩ | ⟨i, hi, ⟨fault', hf, he⟩ | ⟨-, he⟩⟩
    · rw [he, Prod.mk.injEq, Except.error.injEq] at h
      obtain ⟨rfl, rfl⟩ := h
      rw [unsupported_eq]
      exact ⟨.unsupported hi, rfl⟩
    · rw [he, Prod.mk.injEq, Except.error.injEq] at h
      obtain ⟨rfl, rfl⟩ := h
      exact ⟨faults_of_fault? hi hf, rfl⟩
    · rw [he] at h
      cases h
  · rintro ⟨h, rfl⟩
    exact h.exec_eq

end State

end ByteMachine
