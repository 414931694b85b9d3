import ByteMachine.Machine.Run
import ByteMachine.Proofs.Machine.Ticks

/-!
# Runs are plain iteration

A run splits each cycle over two calls of `step`: one shows the state, the next carries out what it
showed. Plain iteration of `exec` has no phases, no snapshots and no budget. From the states
`s_0, s_1, …` of the iteration alone, `answer` says what the call of `step` after `n` others hands out.

* `runAt` is the invariant: as long as a run goes on, it is after `n` calls where the iteration is after
  `n - 1` instructions. `step_runAt_of_le` is what one call does to it, `after_eq_runAt` what all calls do.
* `step_refines_exec`: the run of an image answers as the iteration says.
-/

namespace ByteMachine

namespace State

/-- What came of the instruction that led to the state after `n` instructions; none led to the first
state. -/
def arrival (s : State) (input : Array UInt8) : Nat → Except Fault Progress
  | 0 => .ok .running
  | n + 1 => ((s.execTimes input n).exec input).2

/-- **What a call of `step` hands out** when `n` calls before it have not ended the run: the fault of
the last instruction; or, at the end of the program, the state with `n` cycles; or the exhaustion of the
budget; or else the state before the next instruction, in cycle `n + 1`. -/
def answer (s : State) (input : Array UInt8) (budget : UInt64) (n : Nat) : Except Fault Snapshot :=
  let t := s.execTimes input n
  match s.arrival input n with
  | .error fault => .error fault
  | .ok .halted => .ok ⟨t.withTicks (.ofNat n), true⟩
  | .ok .running =>
    if t.isInMemory = false then .ok ⟨t.withTicks (.ofNat n), true⟩
    else if n = budget.toNat then .error (.ticksExhausted budget)
    else .ok ⟨t.withTicks (.ofNat (n + 1)), false⟩

theorem arrival_ne_ticksExhausted (s : State) (input : Array UInt8) (budget : UInt64) (n : Nat) :
    s.arrival input n ≠ .error (.ticksExhausted budget) := by
  cases n with
  | zero => simp [arrival]
  | succ n => exact exec_ne_ticksExhausted _ _ _

/-- The budget is exhausted only where nothing else ends the run. -/
theorem answer_eq_ticksExhausted_iff {s : State} {input : Array UInt8} {budget : UInt64} {n : Nat} :
    s.answer input budget n = .error (.ticksExhausted budget) ↔
      n = budget.toNat ∧ s.arrival input n = .ok .running ∧
        (s.execTimes input n).isInMemory = true := by
  have never := s.arrival_ne_ticksExhausted input budget n
  unfold answer
  dsimp only
  cases ha : s.arrival input n with
  | error fault =>
    have : fault ≠ .ticksExhausted budget := by
      rintro rfl
      exact never ha
    simp [this]
  | ok progress =>
    cases progress with
    | halted => simp
    | running =>
      by_cases hm : (s.execTimes input n).isInMemory = true
      · by_cases hn : n = budget.toNat <;> simp [hm, hn]
      · simp [hm]

end State

namespace Run

/-! ### The end of a run -/

/-- The result does not end a run. -/
def goesOn : Except Fault Snapshot → Bool
  | .ok snapshot => !snapshot.done
  | .error _ => false

theorem goesOn_eq_true_iff {result : Except Fault Snapshot} :
    goesOn result = true ↔ ∃ t, result = .ok ⟨t, false⟩ := by
  constructor
  · intro h
    obtain _ | ⟨t, _ | _⟩ := result
    · simp [goesOn] at h
    · exact ⟨t, rfl⟩
    · simp [goesOn] at h
  · rintro ⟨t, rfl⟩
    rfl

theorem isOver_beginCycle (r : Run) : r.beginCycle.1.isOver = !goesOn r.beginCycle.2 :=
  beginCycle_cases r (fun _ => rfl) (fun _ _ => rfl) (fun _ _ => rfl)

theorem isOver_step (r : Run) : r.step.1.isOver = !goesOn r.step.2 := by
  refine step_cases r ?ready ?running ?halted ?error ?ended ?faulted
  case ready => exact fun _ => isOver_beginCycle r
  case running => exact fun _ _ _ => isOver_beginCycle _
  case halted => exact fun _ _ _ => rfl
  case error => exact fun _ _ _ _ => rfl
  case ended => exact fun hp => by simp [isOver, hp, goesOn]
  case faulted => exact fun _ hp => by simp [isOver, hp, goesOn]

theorem step_fst_of_isOver {r : Run} (h : r.isOver = true) : r.step.1 = r := by
  match hp : r.phase with
  | .over => rw [step_of_over hp]
  | .faulted fault => rw [step_of_faulted hp]
  | .ready => simp [isOver, hp] at h
  | .shown => simp [isOver, hp] at h

theorem after_of_isOver {r : Run} {m n : Nat} (h : (r.after m).isOver = true) (hmn : m ≤ n) :
    r.after n = r.after m := by
  induction hmn with
  | refl => rfl
  | step _ ih => rw [after, ih, step_fst_of_isOver h]

theorem isOver_after_of_succ {r : Run} {n : Nat} (h : (r.after (n + 1)).isOver = false) :
    (r.after n).isOver = false := by
  cases ho : (r.after n).isOver with
  | false => rfl
  | true =>
    rw [after, step_fst_of_isOver ho, ho] at h
    exact h

theorem isOver_after_iff {r : Run} (hr : r.isOver = false) (n : Nat) :
    (r.after n).isOver = false ↔ ∀ m < n, ∃ t, (r.after m).step.2 = .ok ⟨t, false⟩ := by
  induction n with
  | zero => simp [after, hr]
  | succ n ih =>
    have last : (r.after (n + 1)).isOver = false ↔ ∃ t, (r.after n).step.2 = .ok ⟨t, false⟩ := by
      rw [after, isOver_step, Bool.not_eq_false', goesOn_eq_true_iff]
    constructor
    · intro h m hm
      rcases Nat.lt_succ_iff_lt_or_eq.mp hm with hm | rfl
      · exact ih.mp (isOver_after_of_succ h) m hm
      · exact last.mp h
    · intro h
      exact last.mpr (h n n.lt_succ_self)

/-! ### The invariant -/

section Invariant
variable {s : State} {input : Array UInt8} {budget : UInt64} {n : Nat}

/-- The run that goes on after `n` calls of `step`: the instruction that the last call showed is not
carried out yet. -/
def runAt (s : State) (input : Array UInt8) (budget : UInt64) : Nat → Run
  | 0 => ⟨s, input, budget, .ready⟩
  | n + 1 => ⟨(s.execTimes input n).withTicks (.ofNat (n + 1)), input, budget, .shown⟩

/-- **One call** carries out one instruction, and begins a cycle if the program goes on. -/
theorem step_runAt (hs : s.ticks = 0) (n : Nat) : (runAt s input budget n).step =
    match s.arrival input n with
    | .error fault =>
      abort ⟨(s.execTimes input n).withTicks (.ofNat n), input, budget, .shown⟩ fault
    | .ok .halted => conclude ⟨(s.execTimes input n).withTicks (.ofNat n), input, budget, .shown⟩
    | .ok .running =>
      beginCycle ⟨(s.execTimes input n).withTicks (.ofNat n), input, budget, .ready⟩ := by
  cases n with
  | zero =>
    have start : s.withTicks (.ofNat 0) = s := by
      rw [show UInt64.ofNat 0 = s.ticks from hs.symm, State.withTicks_ticks]
    rw [State.arrival, State.execTimes, start]
    exact step_of_ready rfl
  | succ n =>
    have shown : (runAt s input budget (n + 1)).phase = .shown := rfl
    have exec := (s.execTimes input n).exec_withTicks (.ofNat (n + 1)) input
    rw [State.arrival, State.execTimes]
    rcases he : (s.execTimes input n).exec input with ⟨t, result⟩
    rw [he] at exec
    cases result with
    | error fault => exact step_of_exec_error shown exec
    | ok progress =>
      cases progress with
      | halted => exact step_of_halted shown exec
      | running => exact step_of_running shown exec

theorem beginCycle_withTicks (small : n + 1 < UInt64.size) (hn : n ≤ budget.toNat) (t : State) :
    beginCycle ⟨t.withTicks (.ofNat n), input, budget, .ready⟩ =
      if t.isInMemory = false then
        conclude ⟨t.withTicks (.ofNat n), input, budget, .ready⟩
      else if n = budget.toNat then
        abort ⟨t.withTicks (.ofNat (n + 1)), input, budget, .ready⟩ (.ticksExhausted budget)
      else
        (⟨t.withTicks (.ofNat (n + 1)), input, budget, .shown⟩,
          .ok ⟨t.withTicks (.ofNat (n + 1)), false⟩) := by
  have next : (UInt64.ofNat n) + 1 = .ofNat (n + 1) := (UInt64.ofNat_add n 1).symm
  have spent : budget < UInt64.ofNat (n + 1) ↔ n = budget.toNat := by
    rw [UInt64.lt_iff_toNat_lt, UInt64.toNat_ofNat_of_lt' small]
    omega
  unfold beginCycle
  simp only [State.isInMemory_withTicks, State.ticks_withTicks, next, spent]
  cases t.isInMemory with
  | false => rfl
  | true => rfl

/-- **What one call does** as long as the run goes on: it answers as the iteration says, leaves the state
of the iteration but for its count of cycles, and keeps the invariant if the run still goes on. -/
theorem step_runAt_of_le (input : Array UInt8) (hs : s.ticks = 0) (small : n + 1 < UInt64.size)
    (hn : n ≤ budget.toNat) :
    (runAt s input budget n).step.2 = s.answer input budget n ∧
      (runAt s input budget n).step.1.state.withTicks 0 = s.execTimes input n ∧
      ((runAt s input budget n).step.1.isOver = false →
        (runAt s input budget n).step.1 = runAt s input budget (n + 1) ∧ n < budget.toNat) := by
  have count : (s.execTimes input n).withTicks 0 = s.execTimes input n := by
    rw [show (0 : UInt64) = (s.execTimes input n).ticks by rw [State.ticks_execTimes, hs],
      State.withTicks_ticks]
  rw [step_runAt hs, State.answer]
  cases s.arrival input n with
  | error fault => exact ⟨rfl, count, fun h => Bool.noConfusion h⟩
  | ok progress =>
    cases progress with
    | halted => exact ⟨rfl, count, fun h => Bool.noConfusion h⟩
    | running =>
      dsimp only
      rw [beginCycle_withTicks small hn]
      split
      · exact ⟨rfl, count, fun h => Bool.noConfusion h⟩
      · split
        · exact ⟨rfl, count, fun h => Bool.noConfusion h⟩
        · exact ⟨rfl, count, fun _ => ⟨rfl, by omega⟩⟩

/-- A budget below the largest one bounds the count of cycles. -/
theorem step_runAt_spec (input : Array UInt8) (hs : s.ticks = 0) (hb : budget.toNat < UInt64.size - 1)
    (hn : n ≤ budget.toNat) :
    (runAt s input budget n).step.2 = s.answer input budget n ∧
      (runAt s input budget n).step.1.state.withTicks 0 = s.execTimes input n ∧
      ((runAt s input budget n).step.1.isOver = false →
        (runAt s input budget n).step.1 = runAt s input budget (n + 1) ∧ n < budget.toNat) :=
  step_runAt_of_le input hs (by omega) hn

/-- **As long as a run goes on** it is where the iteration says. -/
theorem after_eq_runAt (hs : s.ticks = 0) (hb : budget.toNat < UInt64.size - 1)
    (h : ((runAt s input budget 0).after n).isOver = false) :
    (runAt s input budget 0).after n = runAt s input budget n ∧ n ≤ budget.toNat := by
  induction n with
  | zero => exact ⟨rfl, Nat.zero_le _⟩
  | succ n ih =>
    obtain ⟨here, within⟩ := ih (isOver_after_of_succ h)
    rw [after, here] at h ⊢
    exact (step_runAt_spec input hs hb within).2.2 h

end Invariant

theorem ofImage_eq_runAt {image : List UInt8} {memory : Memory} (hm : Image.load image = .ok memory)
    (input : Array UInt8) (budget : UInt64) :
    Run.ofImage image input budget = .ok (runAt (State.ofMemory memory) input budget 0) :=
  ofImage_eq_ok hm input budget

/-! ### Refinement -/

/-- The calls of `step` on a run go along the iteration of `exec` on a state. -/
structure Refines (r : Run) (s : State) : Prop where
  /-- A run ends by the result of a call, and only so. -/
  isOver_iff : ∀ n, (r.after n).isOver = false ↔
    ∀ m < n, ∃ t, (r.after m).step.2 = .ok ⟨t, false⟩
  /-- A call on a run that has not ended answers as the iteration says. -/
  answer_eq : ∀ n, (r.after n).isOver = false →
    (r.after n).step.2 = s.answer r.input r.budget n
  /-- A call on a run that has not ended leaves the state of the iteration. -/
  state_eq : ∀ n, (r.after n).isOver = false →
    (r.after (n + 1)).state.withTicks 0 = s.execTimes r.input n
  /-- No more cycles than the budget allows begin, so their number is the count of ticks. -/
  le_budget : ∀ n, (r.after n).isOver = false → n ≤ r.budget.toNat
  /-- The budget ends the run where it is used up and nothing else ends it. -/
  exhausted_iff : ∀ n, (r.after n).isOver = false →
    ((r.after n).step.2 = .error (.ticksExhausted r.budget) ↔
      n = r.budget.toNat ∧ s.arrival r.input n = .ok .running ∧
        (s.execTimes r.input n).isInMemory = true)
  /-- A run that has ended stays as it is. -/
  step_eq : ∀ n, (r.after n).isOver = true → (r.after n).step.1 = r.after n

/-- **A run is plain iteration**: each call of `step` on the run of an image answers what the states of
the iteration say. -/
theorem step_refines_exec {image : List UInt8} {memory : Memory} {budget : UInt64}
    (hm : Image.load image = .ok memory) (input : Array UInt8) (hb : budget.toNat < UInt64.size - 1) :
    ∃ r, Run.ofImage image input budget = .ok r ∧ r.input = input ∧ r.budget = budget ∧
      Refines r (State.ofMemory memory) := by
  have hs : (State.ofMemory memory).ticks = 0 := rfl
  refine ⟨_, ofImage_eq_runAt hm input budget, rfl, rfl, isOver_after_iff rfl, ?_, ?_, ?_, ?_,
    fun _ => step_fst_of_isOver⟩
  · intro n h
    obtain ⟨here, within⟩ := after_eq_runAt hs hb h
    rw [here]
    exact (step_runAt_spec input hs hb within).1
  · intro n h
    obtain ⟨here, within⟩ := after_eq_runAt hs hb h
    rw [after, here]
    exact (step_runAt_spec input hs hb within).2.1
  · intro n h
    exact (after_eq_runAt hs hb h).2
  · intro n h
    obtain ⟨here, within⟩ := after_eq_runAt hs hb h
    rw [here, (step_runAt_spec input hs hb within).1]
    exact State.answer_eq_ticksExhausted_iff

/-- A program that sets a register and then does nothing. -/
def setting : List UInt8 := [0x01, 0x05, 0x0C, 0x00]

/-- A state of `setting`. -/
def settingAt (pc : UInt16) (value : UInt8) (ticks : UInt64) : State :=
  { (State.ofMemory (Image.memoryOf setting)).set Register.pointerLow value with pc := pc, ticks := ticks }

theorem exec_settingAt :
    (settingAt 0 0 0).exec #[] = (settingAt 2 5 0, .ok .running) ∧
      (settingAt 2 5 0).exec #[] = (settingAt 4 5 0, .ok .running) ∧
      (settingAt 4 5 0).exec #[] = (settingAt 6 5 0, .ok .halted) :=
  have hsize : setting.length ≤ memorySize := by decide
  ⟨State.exec_of_memoryOf setting (i := .setImmediate 0 5) rfl hsize (by decide) rfl,
    State.exec_of_memoryOf setting (i := .nop) rfl hsize (by decide) rfl,
    State.exec_of_memoryOf setting (i := .halt) rfl hsize (by decide) rfl⟩

/-- A budget of three cycles shows the state before each of three instructions, and then the end: the third
instruction is the halt that is read from the zeroed memory behind the program. -/
theorem step_refines_exec_setting :
    ∃ r, Run.ofImage (Image.ofPayload setting) #[] 3 = .ok r ∧
      Refines r (State.ofMemory (Image.memoryOf setting)) ∧
      (r.after 0).step.2 = .ok ⟨settingAt 0 0 1, false⟩ ∧
      (r.after 1).step.2 = .ok ⟨settingAt 2 5 2, false⟩ ∧
      (r.after 2).step.2 = .ok ⟨settingAt 4 5 3, false⟩ ∧
      (r.after 3).step.2 = .ok ⟨settingAt 6 5 3, true⟩ := by
  have hm : Image.load (Image.ofPayload setting) = .ok (Image.memoryOf setting) :=
    Image.load_eq_ok (by decide)
  have budget : (3 : UInt64).toNat < UInt64.size - 1 := by decide
  obtain ⟨first, second, third⟩ := exec_settingAt
  have one : (settingAt 0 0 0).execTimes #[] 1 = settingAt 2 5 0 := by
    rw [State.execTimes, State.execTimes, first]
  have two : (settingAt 0 0 0).execTimes #[] 2 = settingAt 4 5 0 := by rw [State.execTimes, one, second]
  have three : (settingAt 0 0 0).execTimes #[] 3 = settingAt 6 5 0 := by rw [State.execTimes, two, third]
  obtain ⟨r, hr, hinput, hbudget, refines⟩ := step_refines_exec hm #[] budget
  have answers {n : Nat} (h : (r.after n).isOver = false) :
      (r.after n).step.2 = (settingAt 0 0 0).answer #[] 3 n := by
    rw [← hinput, ← hbudget]
    exact refines.answer_eq n h
  have goes {n : Nat} {t : State} (h : (r.after n).step.2 = .ok ⟨t, false⟩) :
      (r.after (n + 1)).isOver = false := by
    rw [after, isOver_step, h]
    rfl
  have shown0 : (r.after 0).step.2 = .ok ⟨settingAt 0 0 1, false⟩ :=
    answers ((refines.isOver_iff 0).mpr (by simp))
  have shown1 : (r.after 1).step.2 = .ok ⟨settingAt 2 5 2, false⟩ := by
    rw [answers (goes shown0), State.answer, State.arrival, State.execTimes, first, one]
    rfl
  have shown2 : (r.after 2).step.2 = .ok ⟨settingAt 4 5 3, false⟩ := by
    rw [answers (goes shown1), State.answer, State.arrival, one, second, two]
    rfl
  have done : (r.after 3).step.2 = .ok ⟨settingAt 6 5 3, true⟩ := by
    rw [answers (goes shown2), State.answer, State.arrival, two, third, three]
    rfl
  exact ⟨r, hr, refines, shown0, shown1, shown2, done⟩

end Run

end ByteMachine
