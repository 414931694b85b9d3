import ByteMachine.Proofs.Machine.Faults

/-!
# States within bounds

The bounds of the program counter, of the open calls and of the cursor depend on each other: a return
goes where a call has put its address, and a call puts the address behind its own. An instruction within
the memory keeps them all, whatever comes of it (`IsBounded.exec`), since the addresses in instruction
words have twelve bits (`Instruction.address_lt_of_ofWord?`).

The bytes written, the bytes read and the open calls are the work of a program. An instruction adds at
most one to it (`work_exec_le`).
-/

namespace ByteMachine

/-! ### Bounds -/

namespace State

variable {s t : State} {input : Array UInt8} {i : Instruction}

/-- The number of bytes written, bytes read and open calls. -/
def work (s : State) : Nat := s.output.size + s.cursor + s.calls.size

/-- The bounds of what a program reaches on an input. A program counter behind the memory is at most that
of an instruction that starts in the last cell. -/
structure IsBounded (s : State) (input : Array UInt8) : Prop where
  pc_le : s.pc.toNat ≤ memorySize + 1
  depth_le : s.calls.size ≤ callDepthMax
  calls_bounds : ∀ a ∈ s.calls, 2 ≤ a.toNat ∧ a.toNat ≤ memorySize + 1
  cursor_le : s.cursor ≤ input.size

theorem isBounded_ofMemory (memory : Memory) (input : Array UInt8) :
    (State.ofMemory memory).IsBounded input where
  pc_le := Nat.zero_le _
  depth_le := Nat.zero_le _
  calls_bounds := by simp [State.ofMemory]
  cursor_le := Nat.zero_le _

theorem isInMemory_iff : s.isInMemory = true ↔ s.pc.toNat < memorySize := decide_eq_true_iff

theorem toNat_pc_advance (h : s.isInMemory = true) : s.advance.pc.toNat = s.pc.toNat + 2 := by
  have inside := isInMemory_iff.mp h
  have small : s.pc.toNat + 2 < 2 ^ 16 := by
    unfold memorySize at inside
    omega
  rw [advance, UInt16.toNat_add]
  exact Nat.mod_eq_of_lt small

theorem IsBounded.advance (h : s.IsBounded input) (hm : s.isInMemory = true) :
    s.advance.IsBounded input := by
  have inside := isInMemory_iff.mp hm
  refine ⟨?_, h.depth_le, h.calls_bounds, h.cursor_le⟩
  rw [toNat_pc_advance hm]
  omega

/-! ### What an instruction adds -/

theorem ite_fault_eq_none_iff {p : Prop} [Decidable p] {fault : Fault} :
    (if p then some fault else none) = none ↔ ¬p := by
  simp

theorem exists_calls_of_ret (hf : s.fault? input .ret = none) :
    ∃ (outer : Array UInt16) (a : UInt16), s.calls = outer.push a :=
  Array.exists_push_of_ne_empty (by simpa using ite_fault_eq_none_iff.mp hf)

/-- Whether an instruction faults does not depend on its address, which only the fault names. -/
theorem fault?_advance_eq_none_iff :
    s.advance.fault? input i = none ↔ s.fault? input i = none := by
  cases i with
  | read target => exact ite_fault_eq_none_iff.trans ite_fault_eq_none_iff.symm
  | ret => exact ite_fault_eq_none_iff.trans ite_fault_eq_none_iff.symm
  | _ => exact Iff.rfl

theorem IsBounded.perform (h : s.IsBounded input) (hpc : 2 ≤ s.pc.toNat)
    (ha : ∀ a, i.address? = some a → a.toNat < memorySize) (hf : s.fault? input i = none) :
    (s.perform input i).IsBounded input := by
  have goto {a : UInt16} (hi : i.address? = some a) : a.toNat ≤ memorySize + 1 := by
    have := ha a hi
    omega
  cases i with
  | jump a => exact ⟨goto rfl, h.depth_le, h.calls_bounds, h.cursor_le⟩
  | jumpIf a =>
    rw [perform_jumpIf]
    refine ⟨?_, h.depth_le, h.calls_bounds, h.cursor_le⟩
    dsimp only
    split
    · exact goto rfl
    · exact h.pc_le
  | call a =>
    have room : s.calls.size < callDepthMax := Nat.lt_of_not_le (ite_fault_eq_none_iff.mp hf)
    refine ⟨goto rfl, ?_, ?_, h.cursor_le⟩
    · rwa [State.perform, Array.size_push]
    · intro b hb
      rcases Array.mem_push.mp hb with hb | rfl
      · exact h.calls_bounds b hb
      · exact ⟨hpc, h.pc_le⟩
  | ret =>
    obtain ⟨outer, a, hcalls⟩ := exists_calls_of_ret hf
    have depth := h.depth_le
    have bounds := h.calls_bounds
    rw [hcalls] at depth bounds
    rw [Array.size_push] at depth
    simp only [State.perform, hcalls, Array.back?_push, Option.getD_some, Array.pop_push]
    refine ⟨(bounds a (by simp)).2, ?_, fun b hb => bounds b (by simp [hb]), h.cursor_le⟩
    exact Nat.le_of_succ_le depth
  | read target =>
    have more : s.cursor < input.size := Nat.lt_of_not_le (ite_fault_eq_none_iff.mp hf)
    exact ⟨h.pc_le, h.depth_le, h.calls_bounds, more⟩
  | _ => exact ⟨h.pc_le, h.depth_le, h.calls_bounds, h.cursor_le⟩

theorem work_perform_le : (s.perform input i).work ≤ s.work + 1 := by
  cases i with
  | jumpIf a =>
    rw [perform_jumpIf]
    exact Nat.le_succ _
  | call a => simp only [State.perform, work, Array.size_push]; omega
  | ret => simp only [State.perform, work, Array.size_pop]; omega
  | read target => simp only [State.perform, work, State.set]; omega
  | write source => simp only [State.perform, work, Array.size_push]; omega
  | _ => exact Nat.le_succ _

/-! ### One instruction -/

/-- **Every instruction within the memory keeps the bounds**, whatever comes of it. -/
theorem IsBounded.exec (h : s.IsBounded input) (hm : s.isInMemory = true) :
    (s.exec input).1.IsBounded input := by
  have next := h.advance hm
  rcases s.exec_cases input with ⟨-, he⟩ | ⟨i, hi, ⟨fault, -, he⟩ | ⟨hf, he⟩⟩
  · rwa [he]
  · rwa [he]
  · rw [he]
    refine next.perform ?_ (fun a => Instruction.address_lt_of_ofWord? hi) ?_
    · rw [toNat_pc_advance hm]
      omega
    · exact fault?_advance_eq_none_iff.mpr hf

/-- An instruction writes a byte, reads a byte or opens a call, or it does none of these. -/
theorem work_exec_le (s : State) (input : Array UInt8) : (s.exec input).1.work ≤ s.work + 1 := by
  rcases s.exec_cases input with ⟨-, he⟩ | ⟨i, -, ⟨fault, -, he⟩ | ⟨-, he⟩⟩
  · rw [he]
    exact Nat.le_succ _
  · rw [he]
    exact Nat.le_succ _
  · rw [he]
    exact work_perform_le

theorem exec_eq_halted (h : s.exec input = (t, .ok .halted)) :
    Instruction.ofWord? s.fetch = some .halt ∧ t = s.advance := by
  rcases s.exec_cases input with ⟨-, he⟩ | ⟨i, hi, ⟨fault, -, he⟩ | ⟨-, he⟩⟩
  · rw [he] at h
    cases h
  · rw [he] at h
    cases h
  · rw [he, Prod.mk.injEq, Except.ok.injEq] at h
    obtain ⟨rfl, hp⟩ := h
    unfold progress at hp
    split at hp
    · subst i
      exact ⟨hi, rfl⟩
    · cases hp

theorem exec_eq_endOfInput {pc : UInt16} (h : s.exec input = (t, .error (.endOfInput pc))) :
    input.size ≤ s.cursor ∧ t.cursor = s.cursor := by
  obtain ⟨faults, rfl⟩ := exec_eq_error_iff.mp h
  cases faults with
  | endOfInput _ behind => exact ⟨behind, rfl⟩

end State

end ByteMachine
