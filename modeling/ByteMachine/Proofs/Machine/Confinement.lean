import ByteMachine.Machine.Run
import ByteMachine.Proofs.Machine.Bounds
import ByteMachine.Proofs.Machine.Ticks

/-!
# Runs within bounds

No call of `step` leads a run out of its bounds, after its end as little as before. What is carried from
call to call is `IsBounded`: the bounds of the state, and for each phase how many cycles have paid for the
work of the program. `IsBounded.step` is what one call does to it, `IsBounded.after` what all calls do.

A run keeps the answer of its last call (`answer?_step`), so what its phase says about the run is also
said of every snapshot and every fault that it hands out. The law of all calls is `run_confined`.
-/

namespace ByteMachine

namespace Run

/-! ### What the phase says -/

/-- The answer that the last call of `step` has left in the run. -/
def answer? (r : Run) : Option (Except Fault Snapshot) :=
  match r.phase with
  | .ready => none
  | .shown => some (.ok ⟨r.state, false⟩)
  | .over => some (.ok ⟨r.state, true⟩)
  | .faulted fault => some (.error fault)

theorem answer?_eq_shown_iff {r : Run} {t : State} :
    r.answer? = some (.ok ⟨t, false⟩) ↔ r.phase = .shown ∧ r.state = t := by
  unfold answer?
  split <;> simp [*]

theorem answer?_eq_over_iff {r : Run} {t : State} :
    r.answer? = some (.ok ⟨t, true⟩) ↔ r.phase = .over ∧ r.state = t := by
  unfold answer?
  split <;> simp [*]

theorem answer?_eq_faulted_iff {r : Run} {fault : Fault} :
    r.answer? = some (.error fault) ↔ r.phase = .faulted fault := by
  unfold answer?
  split <;> simp [*]

theorem answer?_beginCycle (r : Run) : r.beginCycle.1.answer? = some r.beginCycle.2 :=
  beginCycle_cases r (fun _ => rfl) (fun _ _ => rfl) (fun _ _ => rfl)

theorem answer?_step (r : Run) : r.step.1.answer? = some r.step.2 := by
  refine step_cases r ?ready ?running ?halted ?error ?ended ?faulted
  case ready => exact fun _ => answer?_beginCycle r
  case running => exact fun _ _ _ => answer?_beginCycle _
  case halted => exact fun _ _ _ => rfl
  case error => exact fun _ _ _ _ => rfl
  case ended => exact fun hp => answer?_eq_over_iff.mpr ⟨hp, rfl⟩
  case faulted => exact fun _ hp => answer?_eq_faulted_iff.mpr hp

/-! ### What no call changes -/

theorem same_beginCycle (r : Run) :
    r.beginCycle.1.input = r.input ∧ r.beginCycle.1.budget = r.budget :=
  beginCycle_cases r (fun _ => ⟨rfl, rfl⟩) (fun _ _ => ⟨rfl, rfl⟩) (fun _ _ => ⟨rfl, rfl⟩)

theorem same_step (r : Run) : r.step.1.input = r.input ∧ r.step.1.budget = r.budget := by
  refine step_cases r ?ready ?running ?halted ?error ?ended ?faulted
  case ready => exact fun _ => same_beginCycle r
  case running => exact fun _ _ _ => same_beginCycle _
  case halted => exact fun _ _ _ => ⟨rfl, rfl⟩
  case error => exact fun _ _ _ _ => ⟨rfl, rfl⟩
  case ended => exact fun _ => ⟨rfl, rfl⟩
  case faulted => exact fun _ _ => ⟨rfl, rfl⟩

theorem same_after (r : Run) (n : Nat) :
    (r.after n).input = r.input ∧ (r.after n).budget = r.budget := by
  induction n with
  | zero => exact ⟨rfl, rfl⟩
  | succ n ih =>
    obtain ⟨input, budget⟩ := same_step (r.after n)
    exact ⟨input.trans ih.1, budget.trans ih.2⟩

/-! ### The invariant -/

/-- A run within its bounds. The instruction that has been shown is paid for by the tick of its cycle,
and is not carried out yet. -/
structure IsBounded (r : Run) : Prop where
  state : r.state.IsBounded r.input
  work_le : r.state.work ≤ r.state.ticks.toNat
  ticks_le : r.state.ticks.toNat ≤ r.budget.toNat + 1
  ready : r.phase = .ready → r.state.ticks.toNat ≤ r.budget.toNat
  shown : r.phase = .shown → r.state.isInMemory = true ∧ r.state.work < r.state.ticks.toNat ∧
    r.state.ticks.toNat ≤ r.budget.toNat
  endOfInput : ∀ pc, r.phase = .faulted (.endOfInput pc) → r.state.cursor = r.input.size

theorem isBounded_ofMemory (memory : Memory) (input : Array UInt8) (budget : UInt64) :
    (Run.ofMemory memory input budget).IsBounded where
  state := State.isBounded_ofMemory memory input
  work_le := Nat.le_refl 0
  ticks_le := Nat.zero_le _
  ready := fun _ => Nat.zero_le _
  shown := nofun
  endOfInput := nofun

theorem IsBounded.exec {r : Run} {s : State} {result : Except Fault Progress} (h : r.IsBounded)
    (hp : r.phase = .shown) (he : r.state.exec r.input = (s, result)) :
    s.IsBounded r.input ∧ s.work ≤ s.ticks.toNat ∧ s.ticks.toNat ≤ r.budget.toNat := by
  obtain ⟨inside, paid, within⟩ := h.shown hp
  have state := h.state.exec inside
  have work := r.state.work_exec_le r.input
  have ticks := r.state.ticks_exec r.input
  rw [he] at state work ticks
  rw [ticks]
  exact ⟨state, Nat.le_trans work paid, within⟩

section
variable {r : Run} (hb : r.budget.toNat < UInt64.size - 1)
include hb

/-- A cycle begins within the bounds, and its tick goes at most one over the budget. -/
theorem IsBounded.beginCycle (h : r.IsBounded) (ht : r.state.ticks.toNat ≤ r.budget.toNat) :
    r.beginCycle.1.IsBounded := by
  have tick : (r.state.ticks + 1).toNat = r.state.ticks.toNat + 1 := by
    have small : r.state.ticks.toNat + 1 < 2 ^ 64 := by
      unfold UInt64.size at hb
      omega
    rw [UInt64.toNat_add]
    exact Nat.mod_eq_of_lt small
  have state : State.IsBounded { r.state with ticks := r.state.ticks + 1 } r.input :=
    ⟨h.state.pc_le, h.state.depth_le, h.state.calls_bounds, h.state.cursor_le⟩
  have paid : r.state.work < (r.state.ticks + 1).toNat := by
    rw [tick]
    exact Nat.lt_succ_of_le h.work_le
  have capped : (r.state.ticks + 1).toNat ≤ r.budget.toNat + 1 := by
    rw [tick]
    exact Nat.succ_le_succ ht
  refine beginCycle_cases r ?outside ?exhausted ?shown
  case outside => exact fun _ => ⟨h.state, h.work_le, h.ticks_le, nofun, nofun, nofun⟩
  case exhausted => exact fun _ _ => ⟨state, Nat.le_of_lt paid, capped, nofun, nofun, nofun⟩
  case shown =>
    intro inside left
    have within := UInt64.le_iff_toNat_le.mp left
    exact ⟨state, Nat.le_of_lt paid, capped, nofun, fun _ => ⟨inside, paid, within⟩, nofun⟩

/-- **One call** keeps the bounds. -/
theorem IsBounded.step (h : r.IsBounded) : r.step.1.IsBounded := by
  refine step_cases r ?ready ?running ?halted ?error ?ended ?faulted
  case ready => exact fun hp => h.beginCycle hb (h.ready hp)
  case running =>
    intro s hp he
    obtain ⟨state, paid, within⟩ := h.exec hp he
    have capped := Nat.le_succ_of_le within
    exact IsBounded.beginCycle hb ⟨state, paid, capped, fun _ => within, nofun, nofun⟩ within
  case halted =>
    intro s hp he
    obtain ⟨state, paid, within⟩ := h.exec hp he
    exact ⟨state, paid, Nat.le_succ_of_le within, nofun, nofun, nofun⟩
  case error =>
    intro s fault hp he
    obtain ⟨state, paid, within⟩ := h.exec hp he
    refine ⟨state, paid, Nat.le_succ_of_le within, nofun, nofun, fun pc hpc => ?_⟩
    obtain rfl : fault = .endOfInput pc := by simpa [abort] using hpc
    obtain ⟨behind, kept⟩ := State.exec_eq_endOfInput he
    exact Nat.le_antisymm state.cursor_le (kept ▸ behind)
  case ended => exact fun _ => h
  case faulted => exact fun _ _ => h

/-- **All calls** keep the bounds. -/
theorem IsBounded.after (h : r.IsBounded) (n : Nat) : (r.after n).IsBounded := by
  induction n with
  | zero => exact h
  | succ n ih => exact IsBounded.step (by rwa [(r.same_after n).2]) ih

end

/-! ### How a run ends -/

theorem isInMemory_beginCycle_of_over {r : Run} (h : r.beginCycle.1.phase = .over) :
    r.beginCycle.1.state.isInMemory = false := by
  revert h
  exact beginCycle_cases r (fun outside _ => outside) (fun _ _ => nofun) (fun _ _ => nofun)

section
variable {r : Run} (hr : r.phase = .ready)
include hr

theorem exists_step_of_shown {n : Nat} (h : (r.after n).phase = .shown) :
    ∃ m < n, (r.after m).step.2 = .ok ⟨(r.after n).state, false⟩ := by
  cases n with
  | zero =>
    rw [after, hr] at h
    cases h
  | succ m =>
    refine ⟨m, m.lt_succ_self, ?_⟩
    have left := answer?_step (r.after m)
    rw [← after, answer?_eq_shown_iff.mpr ⟨h, rfl⟩] at left
    exact (Option.some.inj left).symm

/-- A program ends outside the memory, or by a halt that has been shown. -/
theorem outside_or_halted_of_over {n : Nat} (h : (r.after n).phase = .over) :
    (r.after n).state.isInMemory = false ∨
      ∃ m < n, ∃ s : State, (r.after m).step.2 = .ok ⟨s, false⟩ ∧
        s.exec r.input = ((r.after n).state, .ok .halted) := by
  induction n with
  | zero =>
    rw [after, hr] at h
    cases h
  | succ n ih =>
    rw [after] at h ⊢
    revert h
    refine step_cases (r.after n) ?ready ?running ?halted ?error ?ended ?faulted
    case ready => exact fun _ h => .inl (isInMemory_beginCycle_of_over h)
    case running => exact fun _ _ _ h => .inl (isInMemory_beginCycle_of_over h)
    case halted =>
      intro s hp he _
      obtain ⟨m, hm, shown⟩ := exists_step_of_shown hr hp
      rw [(r.same_after n).1] at he
      exact .inr ⟨m, Nat.lt_succ_of_lt hm, _, shown, he⟩
    case error =>
      intro s fault hp he h
      cases h
    case ended =>
      intro _ h
      rcases ih h with outside | ⟨m, hm, s, shown, he⟩
      · exact .inl outside
      · exact .inr ⟨m, Nat.lt_succ_of_lt hm, s, shown, he⟩
    case faulted =>
      intro fault hp h
      rw [hp] at h
      cases h

end

/-! ### The law of all calls -/

/-- What holds of a run after any number of calls of `step`. -/
structure Confined (r : Run) : Prop where
  size_eq : ∀ n, (r.after n).state.memory.toArray.size = 4096 ∧
    (r.after n).state.registers.toArray.size = 16
  pc_le : ∀ n, (r.after n).state.pc.toNat ≤ 4097
  calls : ∀ n, (r.after n).state.calls.size ≤ 1000 ∧
    ∀ a ∈ (r.after n).state.calls, 2 ≤ a.toNat ∧ a.toNat ≤ 4097
  cursor_le : ∀ n, (r.after n).state.cursor ≤ r.input.size
  /-- A cycle writes a byte, reads a byte or opens a call, or it does none of these. -/
  work_le : ∀ n, (r.after n).state.output.size + (r.after n).state.cursor + (r.after n).state.calls.size ≤
    (r.after n).state.ticks.toNat
  ticks_le : ∀ n, (r.after n).state.ticks.toNat ≤ r.budget.toNat + 1
  /-- A state that is shown is within the memory, and so is the cell that its pointer names. -/
  shown : ∀ n t, (r.after n).step.2 = .ok ⟨t, false⟩ → t.pc.toNat ≤ 4095 ∧
    t.advance.pc.toNat = t.pc.toNat + 2 ∧ t.pointer < t.memory.toArray.size
  /-- A program ends behind the memory, or by a halt that has been shown. -/
  done : ∀ n t, (r.after n).step.2 = .ok ⟨t, true⟩ → (t.pc.toNat = 4096 ∨ t.pc.toNat = 4097) ∨
    ∃ m < n, ∃ s : State, (r.after m).step.2 = .ok ⟨s, false⟩ ∧
      Instruction.ofWord? s.fetch = some .halt ∧ s.exec r.input = (t, .ok .halted) ∧
      s.pc.toNat + 2 = t.pc.toNat
  endOfInput : ∀ n pc, (r.after n).step.2 = .error (.endOfInput pc) →
    (r.after (n + 1)).state.cursor = r.input.size

theorem confined_of_isBounded {r : Run} (hr : r.phase = .ready)
    (h : ∀ n, (r.after n).IsBounded) : Confined r := by
  have budget n := (r.same_after n).2
  have input n := (r.same_after n).1
  have left n : (r.after (n + 1)).answer? = some (r.after n).step.2 := answer?_step (r.after n)
  have shown : ∀ n t, (r.after n).step.2 = .ok ⟨t, false⟩ → t.isInMemory = true := by
    intro n t ht
    obtain ⟨hp, rfl⟩ := answer?_eq_shown_iff.mp ((left n).trans (congrArg some ht))
    exact ((h (n + 1)).shown hp).1
  exact
    { size_eq := fun n => ⟨Vector.size_toArray _, Vector.size_toArray _⟩
      pc_le := fun n => (h n).state.pc_le
      calls := fun n => ⟨(h n).state.depth_le, (h n).state.calls_bounds⟩
      cursor_le := fun n => input n ▸ (h n).state.cursor_le
      work_le := fun n => (h n).work_le
      ticks_le := fun n => budget n ▸ (h n).ticks_le
      shown := by
        intro n t ht
        have inside := shown n t ht
        refine ⟨Nat.le_of_lt_succ (State.isInMemory_iff.mp inside), State.toNat_pc_advance inside, ?_⟩
        rw [Vector.size_toArray]
        exact t.pointer_lt
      done := by
        intro n t ht
        obtain ⟨hp, rfl⟩ := answer?_eq_over_iff.mp ((left n).trans (congrArg some ht))
        rcases outside_or_halted_of_over hr hp with outside | ⟨m, hm, s, hs, he⟩
        · have behind : memorySize ≤ (r.after (n + 1)).state.pc.toNat := by
            simpa [State.isInMemory] using outside
          have pc_le := (h (n + 1)).state.pc_le
          unfold memorySize at behind pc_le
          exact .inl (by omega)
        · obtain ⟨halt, moved⟩ := State.exec_eq_halted he
          -- the call that shows the halt is not the one that ends the run
          have before : m ≠ n := by
            rintro rfl
            rw [ht] at hs
            cases hs
          refine .inr ⟨m, Nat.lt_of_le_of_ne (Nat.le_of_lt_succ hm) before, s, hs, halt, he, ?_⟩
          rw [moved, State.toNat_pc_advance (shown m s hs)]
      endOfInput := by
        intro n pc hpc
        have hp := answer?_eq_faulted_iff.mp ((left n).trans (congrArg some hpc))
        exact input (n + 1) ▸ (h (n + 1)).endOfInput pc hp }

/-- **A run keeps within its bounds**, whatever the program does and however often `step` is called. -/
theorem run_confined {image : List UInt8} {memory : Memory} {budget : UInt64}
    (hm : Image.load image = .ok memory) (input : Array UInt8) (hb : budget.toNat < UInt64.size - 1) :
    ∃ r, Run.ofImage image input budget = .ok r ∧ r.input = input ∧ r.budget = budget ∧ Confined r := by
  refine ⟨Run.ofMemory memory input budget, ?_, rfl, rfl, confined_of_isBounded rfl fun n => ?_⟩
  · rw [Run.ofImage, hm]
    rfl
  · exact (isBounded_ofMemory memory input budget).after hb n

/-- A program that calls a routine, which reads a byte and writes it. -/
def echoing : List UInt8 := [0x4A, 0x00, 0x00, 0x00, 0x06, 0x02, 0x16, 0x02, 0x0B, 0x00]

/-- The states of `echoing` in its five cycles. -/
def echoingAt (n : Nat) : State :=
  ([Instruction.call 4, .read (.ofNibble 2), .write (.ofNibble 2), .ret].take n).foldl (·.cycle #[7])
    ((State.ofMemory (Image.memoryOf echoing)).withTicks 1)

/-- In the fourth cycle the routine has been called, has read and has written; in the fifth the program halts. -/
theorem run_confined_echoing :
    ∃ r, Run.ofImage (Image.ofPayload echoing) #[7] 9 = .ok r ∧ Confined r ∧
      (r.after 4).state = echoingAt 3 ∧ (echoingAt 3).calls = #[2] ∧ (echoingAt 3).cursor = 1 ∧
      (echoingAt 3).output = #[7] ∧ (echoingAt 3).ticks = 4 ∧
      (r.after 5).step.2 = .ok ⟨(echoingAt 4).advance, true⟩ ∧ (echoingAt 4).advance.pc = 4 ∧
      ∃ m < 5, ∃ s : State, (r.after m).step.2 = .ok ⟨s, false⟩ ∧
        Instruction.ofWord? s.fetch = some .halt ∧ s.pc.toNat + 2 = 4 := by
  have hm : Image.load (Image.ofPayload echoing) = .ok (Image.memoryOf echoing) :=
    Image.load_eq_ok (by decide)
  have budget : (9 : UInt64).toNat < UInt64.size - 1 := by decide
  obtain ⟨r, hr, -, -, confined⟩ := run_confined hm #[7] budget
  have start : r.after 1 = ⟨echoingAt 0, #[7], 9, .shown⟩ := by
    rw [eq_ofMemory hm hr]
    rfl
  have hsize : echoing.length ≤ memorySize := by decide
  have called : r.after 2 = ⟨echoingAt 1, #[7], 9, .shown⟩ :=
    after_succ_of_memoryOf echoing (i := .call 4) start rfl hsize (by decide) rfl (by decide) rfl
      (by decide)
  have read : r.after 3 = ⟨echoingAt 2, #[7], 9, .shown⟩ :=
    after_succ_of_memoryOf echoing (i := .read 2) called rfl hsize (by decide) rfl (by decide) rfl
      (by decide)
  have written : r.after 4 = ⟨echoingAt 3, #[7], 9, .shown⟩ :=
    after_succ_of_memoryOf echoing (i := .write 2) read rfl hsize (by decide) rfl (by decide) rfl
      (by decide)
  have returned : r.after 5 = ⟨echoingAt 4, #[7], 9, .shown⟩ :=
    after_succ_of_memoryOf echoing (i := .ret) written rfl hsize (by decide) rfl (by decide) rfl
      (by decide)
  have halt : (echoingAt 4).exec #[7] = ((echoingAt 4).advance, .ok .halted) :=
    State.exec_of_memoryOf echoing (i := .halt) rfl hsize (by decide) rfl
  have done : (r.after 5).step.2 = .ok ⟨(echoingAt 4).advance, true⟩ := by
    rw [returned, step_of_halted (r := ⟨echoingAt 4, #[7], 9, .shown⟩) rfl halt]
    rfl
  obtain outside | ⟨m, hm, s, shown, word, -, pc⟩ := confined.done 5 _ done
  · exact absurd outside (by decide)
  · exact ⟨r, hr, confined, by rw [written], rfl, rfl, rfl, rfl, done, rfl, m, hm, s, shown, word, pc⟩

end Run

end ByteMachine
