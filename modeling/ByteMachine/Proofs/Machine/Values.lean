import ByteMachine.Proofs.Machine.Frame

/-!
# What instructions compute

To the machine a byte is a word of eight bits, here it is a number below 256.

* `Operation.toNat_apply`: an operation is the one on numbers, modulo 256. A shift by eight places or more needs
  no case of its own, since it leaves a multiple of 256 or nothing.
* `Relation.holds_iff`: a comparison is the one of numbers.
* `computes_exec`: the registers and the flag after a cycle, from the state before it.
-/

namespace ByteMachine

/-- The operation on numbers. A difference that would be negative is 256 more. -/
def Operation.onNat : Operation → Nat → Nat → Nat
  | .and, a, b => a &&& b
  | .or, a, b => a ||| b
  | .xor, a, b => a ^^^ b
  | .shiftLeft, a, b => a <<< b
  | .shiftRight, a, b => a >>> b
  | .add, a, b => a + b
  | .sub, a, b => a + (256 - b)

theorem toNat_shiftLeft_of_lt {a b : UInt8} (h : b < 8) :
    (a <<< b).toNat = (a.toNat <<< b.toNat) % 256 := by
  have places : b.toNat < 8 := UInt8.lt_iff_toNat_lt.mp h
  rw [UInt8.toNat_shiftLeft, Nat.mod_eq_of_lt places]

theorem toNat_shiftRight_of_lt {a b : UInt8} (h : b < 8) :
    (a >>> b).toNat = (a.toNat >>> b.toNat) % 256 := by
  have places : b.toNat < 8 := UInt8.lt_iff_toNat_lt.mp h
  have small : a.toNat >>> b.toNat < 256 := Nat.lt_of_le_of_lt (Nat.shiftRight_le _ _) a.toNat_lt
  rw [UInt8.toNat_shiftRight, Nat.mod_eq_of_lt places, Nat.mod_eq_of_lt small]

theorem shiftLeft_mod_of_le (a : Nat) {b : Nat} (h : 8 ≤ b) : (a <<< b) % 256 = 0 := by
  obtain ⟨k, rfl⟩ := Nat.exists_eq_add_of_le h
  rw [Nat.add_comm, Nat.shiftLeft_add, Nat.shiftLeft_eq]
  exact Nat.mul_mod_left _ 256

theorem shiftRight_of_le (a : UInt8) {b : Nat} (h : 8 ≤ b) : a.toNat >>> b = 0 := by
  obtain ⟨k, rfl⟩ := Nat.exists_eq_add_of_le h
  have none : a.toNat >>> 8 = 0 := by
    rw [Nat.shiftRight_eq_div_pow]
    exact Nat.div_eq_of_lt a.toNat_lt
  rw [Nat.shiftRight_add, none, Nat.zero_shiftRight]

/-- **An operation is the one on numbers**, modulo 256. -/
theorem Operation.toNat_apply (op : Operation) (a b : UInt8) :
    (op.apply a b).toNat = op.onNat a.toNat b.toNat % 256 := by
  have within (c : UInt8) : c.toNat = c.toNat % 256 := (Nat.mod_eq_of_lt c.toNat_lt).symm
  have past (h : ¬b < 8) : 8 ≤ b.toNat := Nat.le_of_not_lt fun lt => h (UInt8.lt_iff_toNat_lt.mpr lt)
  cases op with
  | and => rw [apply, within, UInt8.toNat_and, onNat]
  | or => rw [apply, within, UInt8.toNat_or, onNat]
  | xor => rw [apply, within, UInt8.toNat_xor, onNat]
  | shiftLeft =>
    rw [apply, onNat]
    split
    · exact toNat_shiftLeft_of_lt ‹_›
    · exact (shiftLeft_mod_of_le _ (past ‹_›)).symm
  | shiftRight =>
    rw [apply, onNat]
    split
    · exact toNat_shiftRight_of_lt ‹_›
    · rw [shiftRight_of_le a (past ‹_›)]
      rfl
  | add => exact UInt8.toNat_add a b
  | sub =>
    rw [apply, onNat, UInt8.toNat_sub, Nat.add_comm]

/-- The comparison of numbers. -/
def Relation.onNat : Relation → Nat → Nat → Prop
  | .equal, a, b => a = b
  | .notEqual, a, b => a ≠ b
  | .less, a, b => a < b
  | .lessOrEqual, a, b => a ≤ b
  | .greater, a, b => a > b
  | .greaterOrEqual, a, b => a ≥ b

/-- **A comparison is the one of numbers.** -/
theorem Relation.holds_iff (relation : Relation) (a b : UInt8) :
    relation.holds a b = true ↔ relation.onNat a.toNat b.toNat := by
  cases relation with
  | equal => simp [holds, onNat, UInt8.toNat_inj]
  | notEqual => simp [holds, onNat, UInt8.toNat_inj]
  | less | greater => simp [holds, onNat, UInt8.lt_iff_toNat_lt]
  | lessOrEqual | greaterOrEqual => simp [holds, onNat, UInt8.le_iff_toNat_le]

/-- The number that an instruction leaves in a register that is a target of it. -/
def Instruction.value (s : State) (input : Array UInt8) (r : Register) : Instruction → Nat
  | .setImmediate _ value => value.toNat
  | .setRegister _ source => (s.get source).toNat
  | .locate a => if r = Register.pointerLow then a.toNat % 256 else a.toNat / 256 % 16
  | .load _ => (s.byteAt s.pointer).toNat
  | .arithmetic op left right => op.onNat (s.get left).toNat (s.get right).toNat % 256
  | .read _ => (input[s.cursor]?.getD 0).toNat
  | _ => (s.get r).toNat

namespace State

variable {s t : State} {input : Array UInt8} {i : Instruction} {p : Progress}

/-- **The registers after an instruction** that they are targets of. -/
theorem toNat_get_perform (s : State) (input : Array UInt8) {r : Register} (h : r ∈ i.targets) :
    ((s.perform input i).get r).toNat = i.value s input r := by
  cases i with
  | setImmediate target | setRegister target | load target | read target =>
    obtain rfl := List.mem_singleton.mp h
    exact congrArg UInt8.toNat (get_set_same s r _)
  | arithmetic op left right =>
    obtain rfl := List.mem_singleton.mp h
    rw [perform, get_set_same, Operation.toNat_apply, Instruction.value]
  | locate a =>
    obtain ⟨low, high⟩ := get_perform_locate s input a
    rw [Instruction.value]
    split
    · rename_i here
      rw [here, low]
    · rename_i elsewhere
      obtain rfl : r = Register.pointerHigh := by simpa [Instruction.targets, elsewhere] using h
      exact high
  | halt | store _ | write _ | compare _ _ _ | jump _ | jumpIf _ | call _ | ret | nop =>
    cases h

/-- What a cycle computes, from the state before it. -/
structure Computes (i : Instruction) (s : State) (input : Array UInt8) (t : State) : Prop where
  toNat_get_eq : ∀ r ∈ i.targets, (t.get r).toNat = i.value s input r
  get_eq : ∀ r ∉ i.targets, t.get r = s.get r
  flag_iff : ∀ relation left right, i = .compare relation left right →
    (t.flag = true ↔ relation.onNat (s.get left).toNat (s.get right).toNat)
  flag_eq : (∀ relation left right, i ≠ .compare relation left right) → t.flag = s.flag

/-- **What a cycle computes**: whatever the state and the input, a cycle that does not fault leaves the
registers and the flag that its instruction computes on numbers. -/
theorem computes_exec (h : s.exec input = (t, .ok p)) :
    ∃ i, Instruction.ofWord? s.fetch = some i ∧ Computes i s input t := by
  rcases s.exec_cases input with ⟨-, he⟩ | ⟨i, hi, ⟨fault, -, he⟩ | ⟨-, he⟩⟩
  · rw [he] at h
    cases h
  · rw [he] at h
    cases h
  rw [he, Prod.mk.injEq] at h
  obtain ⟨rfl, -⟩ := h
  refine ⟨i, hi, ?_, fun r => get_perform_of_notMem, ?_, ?_⟩
  · intro r hr
    rw [toNat_get_perform _ _ hr]
    cases i <;> rfl
  · rintro relation left right rfl
    exact relation.holds_iff _ _
  · intro other
    cases i with
    | compare relation left right => exact absurd rfl (other relation left right)
    | jumpIf a => rw [perform_jumpIf]; rfl
    | _ => rfl

end State

end ByteMachine
