import ByteMachine.Proofs.Instruction.RoundTrip
import ByteMachine.Proofs.Machine.Budget

/-!
# Straight-line programs

A program of instructions that neither write to the memory nor leave the line has one run: its instructions
one after another, and then a halt, since the memory behind a program is zero. The effects of the
instructions alone (`State.performAll`) say what is computed, without addresses, words or cycles.

* `State.exec_withPc`: one cycle at the address of an instruction is the effect of this instruction;
* `State.execTimes_eq`: so after `m` cycles are the effects of the first `m` instructions, from the address
  of the next one on;
* `Run.execute_of_isStraight`: the outcome on every budget.
-/

namespace ByteMachine

/-! ### Instructions in a line -/

namespace Instruction

/-- The instruction writes to no cell of the memory, and the program goes on behind it. -/
def isStraight : Instruction → Bool
  | .halt | .store _ | .jump _ | .jumpIf _ | .call _ | .ret => false
  | .setImmediate .. | .setRegister .. | .locate _ | .load _ | .arithmetic .. | .read _ | .write _
  | .compare .. | .nop => true

/-- The instruction takes a byte of the input. -/
def isRead : Instruction → Bool
  | .read _ => true
  | _ => false

end Instruction

namespace State

/-- The state with another program counter. -/
def withPc (s : State) (pc : UInt16) : State := { s with pc := pc }

/-- The state after the effects of instructions, one after another. -/
def performAll (s : State) (input : Array UInt8) (is : List Instruction) : State :=
  is.foldl (fun s i => s.perform input i) s

section
variable {s : State} {input : Array UInt8} {i : Instruction}

/-- What an instruction in a line leaves as it is, and how far it reads. -/
structure Keeps (s t : State) (read : Nat) : Prop where
  memory_eq : t.memory = s.memory
  calls_eq : t.calls = s.calls
  ticks_eq : t.ticks = s.ticks
  cursor_eq : t.cursor = s.cursor + read

theorem keeps_perform (h : i.isStraight = true) :
    Keeps s (s.perform input i) (if i.isRead then 1 else 0) := by
  cases i with
  | halt | store source | jump a | jumpIf a | call a | ret => cases h
  | _ => exact ⟨rfl, rfl, rfl, rfl⟩

theorem perform_withPc (h : i.isStraight = true) (pc : UInt16) :
    (s.withPc pc).perform input i = (s.perform input i).withPc pc := by
  cases i with
  | halt | store source | jump a | jumpIf a | call a | ret => cases h
  | _ => rfl

/-- An instruction in a line faults only behind the input. -/
theorem fault?_of_isStraight (h : i.isStraight = true)
    (more : i.isRead = true → s.cursor < input.size) : s.fault? input i = none := by
  cases i with
  | halt | store source | jump a | jumpIf a | call a | ret => cases h
  | read target => exact if_neg (Nat.not_le.mpr (more rfl))
  | _ => rfl

theorem keeps_performAll (s : State) (input : Array UInt8) {is : List Instruction}
    (h : ∀ i ∈ is, i.isStraight = true) :
    Keeps s (s.performAll input is) (is.countP Instruction.isRead) := by
  induction is generalizing s with
  | nil => exact ⟨rfl, rfl, rfl, rfl⟩
  | cons i is ih =>
    rw [List.forall_mem_cons] at h
    have first : Keeps s (s.perform input i) _ := keeps_perform h.1
    have rest := ih (s.perform input i) h.2
    refine ⟨rest.memory_eq.trans first.memory_eq, rest.calls_eq.trans first.calls_eq,
      rest.ticks_eq.trans first.ticks_eq, ?_⟩
    rw [performAll, List.foldl_cons, ← performAll, rest.cursor_eq, first.cursor_eq, List.countP_cons]
    omega

/-- **One cycle** is the effect of the instruction at the program counter. -/
theorem exec_withPc {pc : UInt16} (h : i.isStraight = true)
    (more : i.isRead = true → s.cursor < input.size)
    (hi : Instruction.ofWord? (s.withPc pc).fetch = some i) :
    (s.withPc pc).exec input = ((s.perform input i).withPc (pc + 2), .ok .running) := by
  have fault : (s.withPc pc).fault? input i = none := fault?_of_isStraight h more
  have running : progress i = .running := by
    cases i with
    | halt => cases h
    | _ => rfl
  rw [exec_of_ok hi fault, running, ← perform_withPc h]
  rfl

end

/-! ### Programs in memory -/

section
variable {s : State} {input : Array UInt8} {is : List Instruction}

/-- The memory holds the words of the instructions and nothing else. -/
structure Holds (s : State) (is : List Instruction) : Prop where
  memory_eq : s.memory = Image.memoryOf (is.flatMap Instruction.toBytes)
  fits : 2 * is.length < memorySize
  decodes : ∀ i ∈ is, Instruction.ofWord? i.toWord = some i

theorem Holds.of_keeps {t : State} {read : Nat} (h : s.Holds is) (ht : Keeps s t read) : t.Holds is :=
  ⟨ht.memory_eq.trans h.memory_eq, h.fits, h.decodes⟩

theorem length_flatMap_toBytes (is : List Instruction) :
    (is.flatMap Instruction.toBytes).length = 2 * is.length := by
  induction is with
  | nil => rfl
  | cons i is ih =>
    rw [List.flatMap_cons, List.length_append, Instruction.length_toBytes, ih, List.length_cons]
    omega

theorem toNat_address {m : Nat} (h : 2 * m < memorySize) : (UInt16.ofNat (2 * m)).toNat = 2 * m :=
  UInt16.toNat_ofNat_of_lt' (Nat.lt_trans h (by decide))

theorem Holds.ofWord?_fetch (h : s.Holds is) {m : Nat} {i : Instruction} (hm : is[m]? = some i) :
    Instruction.ofWord? (s.withPc (.ofNat (2 * m))).fetch = some i := by
  obtain ⟨hlt, rfl⟩ := List.getElem?_eq_some_iff.mp hm
  have fits := h.fits
  have address := toNat_address (m := m) (by omega)
  have bytes : is.flatMap Instruction.toBytes = (is.take m).flatMap Instruction.toBytes ++
      (is[m].toBytes ++ (is.drop (m + 1)).flatMap Instruction.toBytes) := by
    rw [← List.flatMap_cons, ← List.flatMap_append, List.getElem_cons_drop, List.take_append_drop]
  have before : ((is.take m).flatMap Instruction.toBytes).length = 2 * m := by
    rw [length_flatMap_toBytes, List.length_take, Nat.min_eq_left (Nat.le_of_lt hlt)]
  have fetch : (s.withPc (.ofNat (2 * m))).fetch =
      Word.ofBytes is[m].toWord.toUInt8 (is[m].toWord >>> 8).toUInt8 := by
    refine fetch_of_memoryOf h.memory_eq ?_ ?_ ?_
    · rw [length_flatMap_toBytes]
      omega
    · rw [withPc, address, bytes, List.getElem?_append_right (by omega), before, Nat.sub_self]
      rfl
    · rw [withPc, address, bytes, List.getElem?_append_right (by omega), before, Nat.add_sub_cancel_left]
      rfl
  rw [fetch, Word.ofBytes_toBytes]
  exact h.decodes _ (List.getElem_mem hlt)

theorem Holds.ofWord?_fetch_length (h : s.Holds is) :
    Instruction.ofWord? (s.withPc (.ofNat (2 * is.length))).fetch = some .halt := by
  have address : (s.withPc (.ofNat (2 * is.length))).pc.toNat = 2 * is.length := toNat_address h.fits
  have memory : (s.withPc (.ofNat (2 * is.length))).memory = _ := h.memory_eq
  have size := length_flatMap_toBytes is
  have behind {a : Nat} (ha : 2 * is.length ≤ a) : (s.withPc (.ofNat (2 * is.length))).byteAt a = 0 := by
    rw [byteAt_of_memoryOf memory (by rw [size]; exact Nat.le_of_lt h.fits),
      List.getElem?_eq_none (by rwa [size]), Option.getD_none]
  rw [fetch, address, behind (Nat.le_refl _), behind (Nat.le_succ _)]
  rfl

/-! ### Cycles -/

theorem lt_size_of_isRead {before after : List Instruction} {i : Instruction}
    (straight : ∀ j ∈ before, j.isStraight = true) (start : s.cursor = 0)
    (reads : (before ++ i :: after).countP Instruction.isRead ≤ input.size) (hi : i.isRead = true) :
    (s.performAll input before).cursor < input.size := by
  rw [(keeps_performAll s input straight).cursor_eq, start]
  rw [List.countP_append, List.countP_cons_of_pos hi] at reads
  omega

variable (h : s.Holds is) (pc_eq : s.pc = 0) (cursor_eq : s.cursor = 0)
  (straight : ∀ i ∈ is, i.isStraight = true) (reads : is.countP Instruction.isRead ≤ input.size)
include h pc_eq cursor_eq straight reads

/-- **After `m` cycles** are the effects of the first `m` instructions. -/
theorem execTimes_eq {m : Nat} (hm : m ≤ is.length) :
    s.execTimes input m = (s.performAll input (is.take m)).withPc (.ofNat (2 * m)) ∧
      s.arrival input m = .ok .running := by
  induction m with
  | zero => exact ⟨congrArg s.withPc pc_eq, rfl⟩
  | succ m ih =>
    have here := (ih (Nat.le_of_lt hm)).1
    have before : ∀ i ∈ is.take m, i.isStraight = true := fun i hi => straight i (List.mem_of_mem_take hi)
    have word := (h.of_keeps (keeps_performAll s input before)).ofWord?_fetch
      (List.getElem?_eq_getElem hm)
    have split : is = is.take m ++ is[m] :: is.drop (m + 1) := by
      rw [List.getElem_cons_drop, List.take_append_drop]
    rw [split] at reads
    have exec := exec_withPc (straight _ (List.getElem_mem hm))
      (lt_size_of_isRead before cursor_eq reads) word
    have next : UInt16.ofNat (2 * m) + 2 = .ofNat (2 * (m + 1)) := (UInt16.ofNat_add (2 * m) 2).symm
    rw [execTimes, arrival, here, exec, next, List.take_succ_eq_append_getElem hm, performAll, performAll,
      List.foldl_append, List.foldl_cons, List.foldl_nil]
    exact ⟨rfl, rfl⟩

theorem execTimes_succ_length :
    s.execTimes input (is.length + 1) =
        (s.performAll input is).withPc (.ofNat (2 * is.length + 2)) ∧
      s.arrival input (is.length + 1) = .ok .halted := by
  have here := (execTimes_eq h pc_eq cursor_eq straight reads (Nat.le_refl _)).1
  rw [List.take_length] at here
  have word := (h.of_keeps (keeps_performAll s input straight)).ofWord?_fetch_length
  rw [execTimes, arrival, here, exec_of_ok word rfl, UInt16.ofNat_add]
  exact ⟨rfl, rfl⟩

/-- The program stops by this halt, and not before. -/
theorem stops_succ_length :
    s.Stops input (is.length + 1) ∧ ∀ m < is.length + 1, ¬s.Stops input m := by
  constructor
  · exact stops_of_halted (execTimes_succ_length h pc_eq cursor_eq straight reads).2
  · intro m hm
    have fits := h.fits
    obtain ⟨here, running⟩ :=
      execTimes_eq h pc_eq cursor_eq straight reads (Nat.le_of_lt_succ hm)
    have inside : (s.execTimes input m).isInMemory = true := by
      rw [here, isInMemory, withPc, toNat_address (by omega)]
      exact decide_eq_true (by omega)
    exact not_stops_iff.mpr ⟨running, inside⟩

end

end State

/-! ### Runs -/

namespace Run

/-- **The run of a straight-line program**: on a budget of more cycles than it has instructions it ends
with their effects, and on every other one the budget is exhausted. -/
theorem execute_of_isStraight {image : List UInt8} {memory : Memory} {is : List Instruction}
    {input : Array UInt8} (hm : Image.load image = .ok memory) (h : (State.ofMemory memory).Holds is)
    (straight : ∀ i ∈ is, i.isStraight = true) (reads : is.countP Instruction.isRead ≤ input.size)
    (budget : UInt64) :
    (is.length + 1 ≤ budget.toNat → execute image input budget =
        .ok { (State.ofMemory memory).performAll input is with
          pc := .ofNat (2 * is.length + 2), ticks := .ofNat (is.length + 1) }) ∧
      (budget.toNat ≤ is.length →
        execute image input budget = .error (.fault (.ticksExhausted budget))) := by
  have fits := h.fits
  have small : is.length + 1 < UInt64.size - 1 := Nat.lt_of_le_of_lt (m := memorySize) (by omega) (by decide)
  obtain ⟨stops, goes⟩ := State.stops_succ_length h rfl rfl straight reads
  obtain ⟨final, halted⟩ := State.execTimes_succ_length h rfl rfl straight reads
  constructor
  · intro enough
    rw [execute_of_stops hm input stops goes small enough, State.ending_of_halted halted, final]
    rfl
  · intro short
    exact execute_of_not_stops hm input (by omega) fun m hle => goes m (by omega)

end Run

end ByteMachine
