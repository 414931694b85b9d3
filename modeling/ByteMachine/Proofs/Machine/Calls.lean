import ByteMachine.Proofs.Machine.Frame

/-!
# Calls and returns

A call opens a return address above those of the outer calls, and nothing but its own return takes the
address away. In between a program may do what it likes: call, jump into other routines, overwrite its
own instructions. No instruction reaches below the innermost open call.

* `isPrefix_exec` is what one instruction does to the addresses at the bottom: it keeps them, or it is
  the return that takes the last of them and goes there.
* `isPrefix_of_steps`: as long as none of them is taken, all instructions keep them.
* `call_returns`: the calls are as they were when a call has returned, and the program goes on behind it.
-/

namespace ByteMachine.State

variable {s t : State} {input : Array UInt8} {i : Instruction}

/-! ### One instruction -/

theorem calls_exec (h : s.exec input = (t, .ok .running)) :
    t.calls = s.calls ∨
      (∃ a, Instruction.ofWord? s.fetch = some (.call a) ∧ t.calls = s.calls.push (s.pc + 2)) ∨
      (Instruction.ofWord? s.fetch = some .ret ∧ s.calls = t.calls.push t.pc) := by
  obtain ⟨i, hi, -, frame⟩ := exists_frame_of_exec h
  have calls := frame.calls
  cases i with
  | call a => exact .inr (.inl ⟨a, hi, calls⟩)
  | ret => exact .inr (.inr ⟨hi, calls⟩)
  | _ => exact .inl calls

/-- **One instruction** keeps the addresses at the bottom, or it is a return to the last of them. -/
theorem isPrefix_exec {bottom : List UInt16} (h : s.exec input = (t, .ok .running))
    (hp : bottom <+: s.calls.toList) :
    bottom <+: t.calls.toList ∨
      Instruction.ofWord? s.fetch = some .ret ∧ bottom = t.calls.toList ++ [t.pc] := by
  rcases calls_exec h with same | ⟨a, -, opened⟩ | ⟨hi, closed⟩
  · rw [same]
    exact .inl hp
  · rw [opened, Array.toList_push]
    exact .inl (hp.trans (List.prefix_append _ _))
  · rw [closed, Array.toList_push, List.prefix_concat_iff] at hp
    rcases hp with all | below
    · exact .inr ⟨hi, all⟩
    · exact .inl below

/-! ### Many instructions -/

section Segment
variable {t : Nat → State} {inputs : Nat → Array UInt8} {n : Nat}

/-- **All instructions** keep the addresses at the bottom as long as there are as many calls. -/
theorem isPrefix_of_steps {bottom : List UInt16} (hp : bottom <+: (t 0).calls.toList)
    (steps : ∀ i < n, (t i).exec (inputs i) = (t (i + 1), .ok .running))
    (inside : ∀ i ≤ n, bottom.length ≤ (t i).calls.size) : ∀ i ≤ n, bottom <+: (t i).calls.toList := by
  intro i hi
  induction i with
  | zero => exact hp
  | succ i ih =>
    rcases isPrefix_exec (steps i hi) (ih (Nat.le_of_succ_le hi)) with kept | ⟨-, taken⟩
    · exact kept
    · have deep := inside (i + 1) hi
      rw [taken, List.length_append, Array.length_toList, List.length_singleton] at deep
      omega

/-- **A call returns**: as long as the call is open, whatever is carried out on whatever input, its
return address and those below it stay as they are. The instruction that brings the number of open calls
back is a return; it leaves the calls of the caller, and goes to the instruction behind the call. -/
theorem call_returns {s : State} {input : Array UInt8} {a : UInt16}
    (call : Instruction.ofWord? s.fetch = some (.call a)) (entered : s.exec input = (t 0, .ok .running))
    (steps : ∀ i < n, (t i).exec (inputs i) = (t (i + 1), .ok .running))
    (inside : ∀ i ≤ n, s.calls.size + 1 ≤ (t i).calls.size) :
    (∀ i ≤ n, (t i).calls.toList.take (s.calls.size + 1) = s.calls.toList ++ [s.pc + 2]) ∧
      ∀ input' u, (t n).exec input' = (u, .ok .running) → u.calls.size = s.calls.size →
        Instruction.ofWord? (t n).fetch = some .ret ∧ u.pc = s.pc + 2 ∧ u.calls = s.calls := by
  have length : (s.calls.toList ++ [s.pc + 2]).length = s.calls.size + 1 := by simp
  have opened : s.calls.toList ++ [s.pc + 2] <+: (t 0).calls.toList := by
    rcases calls_exec entered with same | ⟨b, -, opened⟩ | ⟨ret, -⟩
    · have deep := inside 0 (Nat.zero_le n)
      rw [same] at deep
      omega
    · have pushed : (t 0).calls.toList = s.calls.toList ++ [s.pc + 2] := by
        rw [opened, Array.toList_push]
      exact pushed ▸ List.prefix_rfl
    · rw [call] at ret
      cases ret
  have bottom := isPrefix_of_steps opened steps (by rwa [length])
  constructor
  · intro i hi
    rw [← length]
    exact (List.prefix_iff_eq_take.mp (bottom i hi)).symm
  · intro input' u he back
    rcases isPrefix_exec he (bottom n (Nat.le_refl n)) with kept | ⟨ret, taken⟩
    · have deep := kept.length_le
      rw [length, Array.length_toList] at deep
      omega
    · obtain ⟨calls, pc⟩ := List.append_inj' taken rfl
      exact ⟨ret, (List.singleton_inj.mp pc).symm, (Array.toList_inj.mp calls).symm⟩

end Segment

/-- A program that calls the routine at 4, which calls the routine at 8. -/
def nestedBytes : List UInt8 := [0x4A, 0x00, 0x00, 0x00, 0x8A, 0x00, 0x0B, 0x00, 0x0B, 0x00]

/-- The program at an address, with open calls. -/
def nested (pc : UInt16) (calls : Array UInt16) : State :=
  { State.ofMemory (Image.memoryOf nestedBytes) with pc := pc, calls := calls }

/-- The states from the first call to the last return. -/
def nestedStates : Nat → State
  | 0 => nested 4 #[2]
  | 1 => nested 8 #[2, 6]
  | _ => nested 6 #[2]

/-- The inner call stands above the outer one, which returns to the instruction behind it. -/
theorem call_returns_nested :
    (nestedStates 1).calls = #[2, 6] ∧ (nestedStates 1).calls.toList.take 1 = [2] ∧
      ∃ u, (nestedStates 2).exec #[] = (u, .ok .running) ∧ u.pc = 2 ∧ u.calls = #[] := by
  have hsize : nestedBytes.length ≤ memorySize := by decide
  have call : Instruction.ofWord? (nested 0 #[]).fetch = some (.call 4) := by
    rw [fetch_eq_of_memoryOf (s := nested 0 #[]) nestedBytes rfl hsize]
    decide
  have entered : (nested 0 #[]).exec #[] = (nestedStates 0, .ok .running) := exec_of_ok call rfl
  have first : (nestedStates 0).exec #[] = (nestedStates 1, .ok .running) :=
    exec_of_memoryOf nestedBytes (i := .call 8) rfl hsize (by decide) rfl
  have second : (nestedStates 1).exec #[] = (nestedStates 2, .ok .running) :=
    exec_of_memoryOf nestedBytes (i := .ret) rfl hsize (by decide) rfl
  have last : (nestedStates 2).exec #[] = (nested 2 #[], .ok .running) :=
    exec_of_memoryOf nestedBytes (i := .ret) rfl hsize (by decide) rfl
  have steps : ∀ i < 2, (nestedStates i).exec #[] = (nestedStates (i + 1), .ok .running) := by
    intro i hi
    obtain rfl | rfl : i = 0 ∨ i = 1 := by omega
    · exact first
    · exact second
  have inside : ∀ i ≤ 2, 1 ≤ (nestedStates i).calls.size := by
    intro i hi
    obtain rfl | rfl | rfl : i = 0 ∨ i = 1 ∨ i = 2 := by omega
    · exact Nat.le_refl 1
    · exact Nat.le_succ 1
    · exact Nat.le_refl 1
  obtain ⟨bottom, back⟩ := call_returns call entered steps inside
  obtain ⟨-, pc, calls⟩ := back #[] _ last rfl
  exact ⟨rfl, bottom 1 (by decide), _, last, pc, calls⟩

end ByteMachine.State
