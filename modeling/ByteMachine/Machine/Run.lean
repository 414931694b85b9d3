import ByteMachine.Machine.Exec

/-!
# Runs

A run carries out a program one cycle at a time and hands out the state between the cycles. A call of
`step` first carries out the instruction that the last snapshot showed, and then begins the next cycle,
which costs a tick; the last snapshot of a program that ends by itself is marked as done. The end of a
run, a fault included, is kept: every later call answers it again.

The lemmas `step_of_…` give the cases of `step` by the phase of the run, and `step_cases` says that there
are no others. `next_of_isOver` says that nothing is handed out after the end, and `after_add` splits the
calls of `step` in two.
-/

namespace ByteMachine

/-- The budget of cycles where none is given. -/
def defaultBudget : UInt64 := 1000

/-- The state in which the next cycle begins, after an instruction. -/
def State.cycle (s : State) (input : Array UInt8) (i : Instruction) : State :=
  let t := s.advance.perform input i
  { t with ticks := t.ticks + 1 }

/-- A state as a run hands it out. -/
structure Snapshot where
  /-- The state before the instruction at its program counter, or at the end of the program. -/
  state : State
  /-- The program has ended. -/
  done : Bool
  deriving DecidableEq

/-- Where a run is in its cycle. -/
inductive Phase where
  /-- The instruction at the program counter has not been shown in a snapshot. -/
  | ready
  /-- The instruction has been shown, and is still to be carried out. -/
  | shown
  /-- The program has ended. -/
  | over
  /-- A fault has ended the run. -/
  | faulted (fault : Fault)
  deriving DecidableEq, Repr

/-- A run that can be continued cycle by cycle. -/
structure Run where
  state : State
  input : Array UInt8
  /-- The number of cycles that may begin. -/
  budget : UInt64
  phase : Phase
  deriving DecidableEq

namespace Run

/-- The run before the first cycle of a program in memory. -/
def ofMemory (memory : Memory) (input : Array UInt8) (budget : UInt64) : Run where
  state := State.ofMemory memory
  input := input
  budget := budget
  phase := .ready

/-- The run of an image. -/
def ofImage (image : List UInt8) (input : Array UInt8) (budget : UInt64) :
    Except Image.LoadError Run :=
  (Image.load image).map (ofMemory · input budget)

theorem ofImage_eq_ok_iff {image : List UInt8} {input : Array UInt8} {budget : UInt64} {r : Run} :
    Run.ofImage image input budget = .ok r ↔
      ∃ memory, Image.load image = .ok memory ∧ ofMemory memory input budget = r := by
  unfold ofImage
  cases Image.load image with
  | error error => simp [Except.map]
  | ok memory => simp [Except.map]

theorem ofImage_eq_ok {image : List UInt8} {memory : Memory} (hm : Image.load image = .ok memory)
    (input : Array UInt8) (budget : UInt64) :
    Run.ofImage image input budget = .ok (ofMemory memory input budget) :=
  ofImage_eq_ok_iff.mpr ⟨memory, hm, rfl⟩

theorem eq_ofMemory {image : List UInt8} {memory : Memory} (hm : Image.load image = .ok memory)
    {input : Array UInt8} {budget : UInt64} {r : Run} (hr : Run.ofImage image input budget = .ok r) :
    r = ofMemory memory input budget :=
  Except.ok.inj (hr.symm.trans (ofImage_eq_ok hm input budget))

/-- The run has ended. -/
def isOver (r : Run) : Bool :=
  match r.phase with
  | .over | .faulted _ => true
  | .ready | .shown => false

/-- Ends the run as the program ends. -/
def conclude (r : Run) : Run × Except Fault Snapshot :=
  let r : Run := { r with phase := .over }
  (r, .ok ⟨r.state, true⟩)

/-- Ends the run by a fault. -/
def abort (r : Run) (fault : Fault) : Run × Except Fault Snapshot :=
  ({ r with phase := .faulted fault }, .error fault)

/-- Begins a cycle. The program ends outside the memory; else a tick is spent, which the budget must
allow. -/
def beginCycle (r : Run) : Run × Except Fault Snapshot :=
  if !r.state.isInMemory then r.conclude
  else
    let r : Run := { r with state.ticks := r.state.ticks + 1 }
    if r.budget < r.state.ticks then r.abort (.ticksExhausted r.budget)
    else
      let r : Run := { r with phase := .shown }
      (r, .ok ⟨r.state, false⟩)

/-- Goes on by one cycle. -/
def step (r : Run) : Run × Except Fault Snapshot :=
  match r with
  | ⟨state, input, budget, .ready⟩ => beginCycle ⟨state, input, budget, .ready⟩
  | ⟨state, input, budget, .shown⟩ =>
    match state.exec input with
    | (state, .ok .running) => beginCycle ⟨state, input, budget, .ready⟩
    | (state, .ok .halted) => conclude ⟨state, input, budget, .shown⟩
    | (state, .error fault) => abort ⟨state, input, budget, .shown⟩ fault
  | ⟨state, input, budget, .over⟩ => (⟨state, input, budget, .over⟩, .ok ⟨state, true⟩)
  | ⟨state, input, budget, .faulted fault⟩ =>
    (⟨state, input, budget, .faulted fault⟩, .error fault)

/-- Goes on by one cycle unless the run has ended. -/
def next (r : Run) : Run × Option (Except Fault Snapshot) :=
  if r.isOver then (r, none)
  else
    let (r, result) := r.step
    (r, some result)

/-- The run after some calls of `step`. -/
def after (r : Run) : Nat → Run
  | 0 => r
  | n + 1 => (r.after n).step.1

theorem after_add (r : Run) (m n : Nat) : r.after (m + n) = (r.after m).after n := by
  induction n with
  | zero => rfl
  | succ n ih => rw [← Nat.add_assoc, after, ih, after]

/-- The calls after the first one. -/
theorem after_succ' (r : Run) (n : Nat) : r.after (n + 1) = r.step.1.after n := by
  rw [Nat.add_comm, after_add]
  rfl

/-! ### The cases of a cycle -/

theorem step_of_ready {r : Run} (h : r.phase = .ready) : r.step = r.beginCycle := by
  obtain ⟨state, input, budget, phase⟩ := r
  subst h
  rfl

theorem step_of_running {r : Run} {s : State} (h : r.phase = .shown)
    (he : r.state.exec r.input = (s, .ok .running)) :
    r.step = beginCycle { r with state := s, phase := .ready } := by
  obtain ⟨state, input, budget, phase⟩ := r
  subst h
  simp only at he
  simp [step, he]

theorem step_of_halted {r : Run} {s : State} (h : r.phase = .shown)
    (he : r.state.exec r.input = (s, .ok .halted)) :
    r.step = conclude { r with state := s } := by
  obtain ⟨state, input, budget, phase⟩ := r
  subst h
  simp only at he
  simp [step, he]

theorem step_of_exec_error {r : Run} {s : State} {fault : Fault} (h : r.phase = .shown)
    (he : r.state.exec r.input = (s, .error fault)) :
    r.step = abort { r with state := s } fault := by
  obtain ⟨state, input, budget, phase⟩ := r
  subst h
  simp only at he
  simp [step, he]

theorem step_of_over {r : Run} (h : r.phase = .over) : r.step = (r, .ok ⟨r.state, true⟩) := by
  obtain ⟨state, input, budget, phase⟩ := r
  subst h
  rfl

theorem step_of_faulted {r : Run} {fault : Fault} (h : r.phase = .faulted fault) :
    r.step = (r, .error fault) := by
  obtain ⟨state, input, budget, phase⟩ := r
  subst h
  rfl

section Cases
variable {motive : Run × Except Fault Snapshot → Prop} (r : Run)

/-- A cycle begins in one of three ways. -/
@[elab_as_elim]
theorem beginCycle_cases
    (outside : r.state.isInMemory = false → motive r.conclude)
    (exhausted : r.state.isInMemory = true → r.budget < r.state.ticks + 1 →
      motive (abort { r with state.ticks := r.state.ticks + 1 } (.ticksExhausted r.budget)))
    (shown : r.state.isInMemory = true → r.state.ticks + 1 ≤ r.budget →
      motive ({ r with state.ticks := r.state.ticks + 1, phase := .shown },
        .ok ⟨{ r.state with ticks := r.state.ticks + 1 }, false⟩)) : motive r.beginCycle := by
  unfold beginCycle
  dsimp only
  split
  · rename_i out
    exact outside (by simpa using out)
  · rename_i inside
    have inside : r.state.isInMemory = true := by simpa using inside
    split
    · rename_i spent
      exact exhausted inside spent
    · rename_i left
      exact shown inside (UInt64.not_lt.mp left)

/-- A call of `step` goes in one of six ways, by the phase of the run and by what comes of the instruction
that has been shown. -/
@[elab_as_elim]
theorem step_cases
    (ready : r.phase = .ready → motive r.beginCycle)
    (running : ∀ s, r.phase = .shown → r.state.exec r.input = (s, .ok .running) →
      motive (beginCycle { r with state := s, phase := .ready }))
    (halted : ∀ s, r.phase = .shown → r.state.exec r.input = (s, .ok .halted) →
      motive (conclude { r with state := s }))
    (error : ∀ s fault, r.phase = .shown → r.state.exec r.input = (s, .error fault) →
      motive (abort { r with state := s } fault))
    (ended : r.phase = .over → motive (r, .ok ⟨r.state, true⟩))
    (faulted : ∀ fault, r.phase = .faulted fault → motive (r, .error fault)) : motive r.step := by
  match hp : r.phase with
  | .ready =>
    rw [step_of_ready hp]
    exact ready hp
  | .shown =>
    match he : r.state.exec r.input with
    | (s, .ok .running) =>
      rw [step_of_running hp he]
      exact running s hp he
    | (s, .ok .halted) =>
      rw [step_of_halted hp he]
      exact halted s hp he
    | (s, .error fault) =>
      rw [step_of_exec_error hp he]
      exact error s fault hp he
  | .over =>
    rw [step_of_over hp]
    exact ended hp
  | .faulted fault =>
    rw [step_of_faulted hp]
    exact faulted fault hp

end Cases

theorem beginCycle_of_le {r : Run} (inside : r.state.isInMemory = true)
    (left : r.state.ticks + 1 ≤ r.budget) :
    r.beginCycle = ({ r with state.ticks := r.state.ticks + 1, phase := .shown },
      .ok ⟨{ r.state with ticks := r.state.ticks + 1 }, false⟩) := by
  have within : ¬r.budget < r.state.ticks + 1 := UInt64.not_lt.mpr left
  unfold beginCycle
  dsimp only
  rw [inside, if_neg (by decide), if_neg within]

theorem next_of_isOver {r : Run} (h : r.isOver = true) : r.next = (r, none) := by
  simp [next, h]

theorem next_of_not_isOver {r : Run} (h : r.isOver = false) : r.next = (r.step.1, some r.step.2) := by
  simp [next, h]

/-! ### Programs in memory -/

/-- A run goes on from the state that it has shown to the one after the instruction there, which is read from
the bytes that the memory was made of. -/
theorem after_succ_of_memoryOf {r : Run} {n : Nat} {s : State} {input : Array UInt8} {budget : UInt64}
    (bytes : List UInt8) {i : Instruction} (h : r.after n = ⟨s, input, budget, .shown⟩)
    (hm : s.memory = Image.memoryOf bytes) (hsize : bytes.length ≤ memorySize)
    (hi : Instruction.ofWord?
      (Word.ofBytes (bytes[s.pc.toNat]?.getD 0) (bytes[s.pc.toNat + 1]?.getD 0)) = some i)
    (hf : s.fault? input i = none) (goes : i ≠ .halt) (inside : (s.cycle input i).isInMemory = true)
    (left : (s.cycle input i).ticks ≤ budget) :
    r.after (n + 1) = ⟨s.cycle input i, input, budget, .shown⟩ := by
  have running : State.progress i = .running := if_neg goes
  have exec := State.exec_of_memoryOf bytes hm hsize hi hf
  rw [running] at exec
  have begun : step ⟨s, input, budget, .shown⟩ =
      beginCycle ⟨s.advance.perform input i, input, budget, .ready⟩ :=
    step_of_running (r := ⟨s, input, budget, .shown⟩) rfl exec
  have shown := beginCycle_of_le (r := ⟨s.advance.perform input i, input, budget, .ready⟩) inside left
  rw [after, h, begun, shown]
  rfl

end Run

end ByteMachine
