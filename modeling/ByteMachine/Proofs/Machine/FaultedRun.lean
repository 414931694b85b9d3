import ByteMachine.Proofs.Machine.Faults
import ByteMachine.Proofs.Machine.HandOut

/-!
# Runs that end by a fault

A run shows a state, then carries out its instruction. If the state has a fault, it is the last one that
is shown: the next call answers the fault, and so do all later ones (`after_of_faults`). And apart from
the exhausted budget a run has no other faults to answer (`exists_faults_of_error`).

Main statement: `faults_exact`.
-/

namespace ByteMachine

namespace Run

variable {r : Run} {t : State} {fault : Fault}

/-! ### One call -/

theorem step_of_faults (hp : r.pending? = some t) (h : t.Faults r.input fault) :
    r.step = abort { r with state := t.advance } fault := by
  rw [step_eq, hp]
  dsimp only
  rw [h.exec_eq]
  rfl

theorem beginCycle_snd_ne_error (ne : fault ≠ .ticksExhausted r.budget) :
    r.beginCycle.2 ≠ .error fault := by
  refine beginCycle_cases r ?outside ?exhausted ?shown
  case outside => exact fun _ => nofun
  case exhausted =>
    intro _ _ h
    exact ne (Except.error.inj h).symm
  case shown => exact fun _ _ => nofun

theorem pending?_or_faulted_of_error (h : r.step.2 = .error fault)
    (ne : fault ≠ .ticksExhausted r.budget) :
    (∃ t, r.pending? = some t ∧ t.Faults r.input fault) ∨ r.answer? = some (.error fault) := by
  revert h
  refine step_cases r ?ready ?running ?halted ?error ?ended ?faulted
  case ready => exact fun _ h => absurd h (beginCycle_snd_ne_error ne)
  case running => exact fun s _ _ h => absurd h (beginCycle_snd_ne_error ne)
  case halted =>
    intro s _ _ h
    cases h
  case error =>
    intro s fault' hp he h
    obtain rfl := Except.error.inj h
    exact .inl ⟨r.state, by rw [pending?, if_pos hp], (State.exec_eq_error_iff.mp he).1⟩
  case ended =>
    intro _ h
    cases h
  case faulted =>
    intro fault' hp h
    obtain rfl := Except.error.inj h
    exact .inr (answer?_eq_faulted_iff.mpr hp)

/-! ### All calls -/

section
variable {n : Nat}

/-- A shown state that faults is the last one: every later call answers the fault, and leaves the state
with the program counter behind the instruction. -/
theorem after_of_faults (shown : (r.after n).step.2 = .ok ⟨t, false⟩) (h : t.Faults r.input fault)
    {k : Nat} (hk : n < k) :
    (r.after k).step.2 = .error fault ∧ (r.after (k + 1)).state = { t with pc := t.pc + 2 } := by
  have pending : (r.after (n + 1)).pending? = some t := pending?_step shown
  have ended : (r.after (n + 1)).step = abort { r.after (n + 1) with state := t.advance } fault := by
    refine step_of_faults pending ?_
    rwa [(same_after r (n + 1)).1]
  have closed : (r.after (n + 2)).isOver = true := by
    rw [after, ended]
    rfl
  obtain ⟨m, rfl⟩ := Nat.exists_eq_add_of_le hk
  constructor
  · have kept := step_snd_of_ends (r := r.after (n + 1)) (by rw [ended]; rfl) m
    rw [after_add, kept, ended]
    rfl
  · have last : r.after (n + 1 + m + 1) = r.after (n + 2) := after_of_isOver closed (by omega)
    rw [last, after, ended]
    rfl

theorem exists_faults_of_error (hr : r.phase = .ready) (h : (r.after n).step.2 = .error fault)
    (ne : fault ≠ .ticksExhausted r.budget) :
    ∃ m t, m < n ∧ (r.after m).step.2 = .ok ⟨t, false⟩ ∧ t.Faults r.input fault := by
  induction n with
  | zero =>
    -- nothing has been shown or answered yet
    rcases pending?_or_faulted_of_error h ne with ⟨t, hp, -⟩ | left
    · rw [after, pending?, hr] at hp
      cases hp
    · rw [after, answer?, hr] at left
      cases left
  | succ n ih =>
    obtain ⟨input, budget⟩ := same_after r (n + 1)
    rcases pending?_or_faulted_of_error h (by rwa [budget]) with ⟨t, hp, ht⟩ | left
    · rw [pending?_eq_some_iff, after, answer?_step] at hp
      exact ⟨n, t, Nat.lt_succ_self n, Option.some.inj hp, input ▸ ht⟩
    · rw [after, answer?_step] at left
      obtain ⟨m, t, hm, shown, ht⟩ := ih (Option.some.inj left)
      exact ⟨m, t, Nat.lt_succ_of_lt hm, shown, ht⟩

end

/-- **Faults are exact and leave the machine as it is.** In every state and on every input, an instruction
faults exactly if the state has a fault, with that fault, and it moves the program counter on and changes
nothing else. In every run, a shown state that has a fault is the last one: all later calls answer the
fault and leave that state with the program counter moved on. And every fault that a run answers, unless
its budget is exhausted, is that of a state that it has shown. -/
theorem faults_exact :
    (∀ (s t : State) (input : Array UInt8) (fault : Fault),
      s.exec input = (t, .error fault) ↔ s.Faults input fault ∧ t = { s with pc := s.pc + 2 }) ∧
      ∀ (image : List UInt8) (input : Array UInt8) (budget : UInt64) (r : Run),
        Run.ofImage image input budget = .ok r →
        (∀ (n : Nat) (t : State) (fault : Fault),
          (r.after n).step.2 = .ok ⟨t, false⟩ → t.Faults input fault → ∀ k, n < k →
            (r.after k).step.2 = .error fault ∧ (r.after (k + 1)).state = { t with pc := t.pc + 2 }) ∧
        ∀ (n : Nat) (fault : Fault),
          (r.after n).step.2 = .error fault → fault ≠ .ticksExhausted budget →
            ∃ m t, m < n ∧ (r.after m).step.2 = .ok ⟨t, false⟩ ∧ t.Faults input fault := by
  refine ⟨fun s t input fault => State.exec_eq_error_iff, ?_⟩
  intro image input budget r hr
  obtain ⟨memory, -, rfl⟩ := ofImage_eq_ok_iff.mp hr
  exact ⟨fun n t fault shown h k hk => after_of_faults shown h hk,
    fun n fault h ne => exists_faults_of_error rfl h ne⟩

/-- A program whose first word is no instruction. -/
def undecodable : List UInt8 := [0x24, 0x00]

/-- The fault names the address of the word and its nibbles; the program counter is behind the word. -/
theorem faults_exact_undecodable :
    ∃ r, Run.ofImage (Image.ofPayload undecodable) #[] 10 = .ok r ∧
      (r.after 1).step.2 = .error (.unsupportedOperation 0 4 2) ∧ (r.after 2).state.pc = 2 ∧
        ∃ m t, m < 1 ∧ (r.after m).step.2 = .ok ⟨t, false⟩ ∧
          t.Faults #[] (.unsupportedOperation 0 4 2) := by
  have loaded : Image.load (Image.ofPayload undecodable) = .ok (Image.memoryOf undecodable) :=
    Image.load_eq_ok (by decide)
  have started := ofImage_eq_ok loaded #[] 10
  have word : (State.ofMemory (Image.memoryOf undecodable)).fetch = Word.ofBytes 0x24 0x00 :=
    State.fetch_of_memoryOf rfl (by decide) rfl rfl
  let t : State := { State.ofMemory (Image.memoryOf undecodable) with ticks := 1 }
  have fetched : t.fetch = 0x24 := word
  have none : Instruction.ofWord? t.fetch = none := by
    rw [fetched]
    decide
  have h : t.Faults #[] _ := .unsupported none
  rw [fetched] at h
  have shown : ((ofMemory (Image.memoryOf undecodable) #[] 10).after 0).step.2 = .ok ⟨t, false⟩ := by
    rw [after, step_of_ready rfl]
    rfl
  obtain ⟨later, earlier⟩ := faults_exact.2 _ _ _ _ started
  obtain ⟨answer, state⟩ := later 0 t _ shown h 1 (by decide)
  have ne : Fault.unsupportedOperation 0 4 2 ≠ .ticksExhausted 10 := by decide
  refine ⟨_, started, answer, ?_, earlier 1 _ answer ne⟩
  rw [state]
  rfl

end Run

end ByteMachine
