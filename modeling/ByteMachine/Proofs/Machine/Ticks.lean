import ByteMachine.Proofs.Machine.Faults

/-!
# The count of cycles

No instruction reads or changes the count of cycles: a state with another count is carried out in the
same way (`exec_withTicks`), so plain iteration of `exec` keeps the count that it starts with
(`ticks_execTimes`), and no instruction finds the budget of cycles exhausted
(`exec_ne_ticksExhausted`).
-/

namespace ByteMachine.State

/-- The state with another count of cycles. -/
def withTicks (s : State) (ticks : UInt64) : State := { s with ticks := ticks }

@[simp] theorem ticks_withTicks (s : State) (t : UInt64) : (s.withTicks t).ticks = t := rfl

@[simp] theorem withTicks_ticks (s : State) : s.withTicks s.ticks = s := rfl

@[simp] theorem fetch_withTicks (s : State) (t : UInt64) : (s.withTicks t).fetch = s.fetch := rfl

@[simp] theorem isInMemory_withTicks (s : State) (t : UInt64) :
    (s.withTicks t).isInMemory = s.isInMemory := rfl

theorem advance_withTicks (s : State) (t : UInt64) :
    (s.withTicks t).advance = s.advance.withTicks t := rfl

theorem unsupported_withTicks (s : State) (t : UInt64) :
    (s.withTicks t).unsupported = s.unsupported := rfl

theorem fault?_withTicks (s : State) (t : UInt64) (input : Array UInt8) (i : Instruction) :
    (s.withTicks t).fault? input i = s.fault? input i := by
  cases i <;> rfl

theorem perform_withTicks (s : State) (t : UInt64) (input : Array UInt8) (i : Instruction) :
    (s.withTicks t).perform input i = (s.perform input i).withTicks t := by
  cases i with
  | jumpIf address =>
    rw [perform_jumpIf, perform_jumpIf]
    rfl
  | _ => rfl

/-- **The count of cycles does not matter** to an instruction, and is kept by it. -/
theorem exec_withTicks (s : State) (t : UInt64) (input : Array UInt8) :
    (s.withTicks t).exec input = ((s.exec input).1.withTicks t, (s.exec input).2) := by
  have fetch := fetch_withTicks s t
  cases hi : Instruction.ofWord? s.fetch with
  | none =>
    rw [exec_of_none input (fetch ▸ hi), exec_of_none input hi, advance_withTicks,
      unsupported_withTicks]
  | some i =>
    have fault := fault?_withTicks s t input i
    cases hf : s.fault? input i with
    | some fault' =>
      rw [exec_of_fault (fetch ▸ hi) (fault.trans hf), exec_of_fault hi hf, advance_withTicks]
    | none =>
      rw [exec_of_ok (fetch ▸ hi) (fault.trans hf), exec_of_ok hi hf, advance_withTicks,
        perform_withTicks]

theorem ticks_exec (s : State) (input : Array UInt8) : (s.exec input).1.ticks = s.ticks := by
  have h := congrArg (fun result => result.1.ticks) (exec_withTicks s s.ticks input)
  simpa using h

theorem ticks_execTimes (s : State) (input : Array UInt8) (n : Nat) :
    (s.execTimes input n).ticks = s.ticks := by
  induction n with
  | zero => rfl
  | succ n ih => rw [execTimes, ticks_exec, ih]

theorem exec_ne_ticksExhausted (s : State) (input : Array UInt8) (budget : UInt64) :
    (s.exec input).2 ≠ .error (.ticksExhausted budget) := by
  intro h
  have raised : s.exec input = ((s.exec input).1, .error (.ticksExhausted budget)) := Prod.ext rfl h
  obtain ⟨faults, -⟩ := exec_eq_error_iff.mp raised
  cases faults

end ByteMachine.State
