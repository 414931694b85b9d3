import ByteMachine.Proofs.Machine.Budget
import ByteMachine.Proofs.Machine.Confinement
import ByteMachine.Proofs.Machine.Frame

/-!
# Input that is not read

A program learns about its input only by reading it, one byte after another, and it learns that the input
has come to its end only by the fault of a read behind the last byte. So two inputs that agree as far as
a run has read lead to the same run, unless it ends by that fault.

* `exec_of_agree` is what one instruction sees of the input: the bytes in front of the cursor that it
  leaves. `cursor_exec` says how it moves the cursor.
* `step_withInput` and `after_withInput` say the same of one call of `step` and of all calls. What ties
  the two runs together is that they differ in the input alone (`withInput`).
* `unread_input` is the law for the runs of an image on two inputs, and for their outcomes.
-/

namespace ByteMachine

/-! ### Inputs that agree -/

/-- The second input has at least `k` bytes, and starts with those that the first input starts with. -/
structure AgreeUpTo (input other : Array UInt8) (k : Nat) : Prop where
  le_size : k ≤ other.size
  take_eq : other.toList.take k = input.toList.take k

section Agree
variable {input other : Array UInt8} {j k : Nat}

theorem AgreeUpTo.mono (h : AgreeUpTo input other k) (hj : j ≤ k) : AgreeUpTo input other j := by
  refine ⟨Nat.le_trans hj h.le_size, ?_⟩
  have shorter := congrArg (List.take j) h.take_eq
  rwa [List.take_take, List.take_take, Nat.min_eq_left hj] at shorter

theorem AgreeUpTo.getElem?_eq (h : AgreeUpTo input other k) (hj : j < k) : other[j]? = input[j]? := by
  have byte := congrArg (fun bytes => bytes[j]?) h.take_eq
  simpa [List.getElem?_take_of_lt hj] using byte

theorem agreeUpTo_of_isPrefix (h : input.toList <+: other.toList) (hk : k ≤ input.size) :
    AgreeUpTo input other k := by
  obtain ⟨rest, hrest⟩ := h
  have length : k ≤ input.toList.length := by rwa [Array.length_toList]
  refine ⟨?_, ?_⟩
  · rw [← Array.length_toList, ← hrest, List.length_append]
    exact Nat.le_add_right_of_le length
  · rw [← hrest, List.take_append_of_le_length length]

end Agree

/-! ### One instruction -/

namespace State

variable {s : State} {input other : Array UInt8} {i : Instruction}

theorem same_of_ne_read (s : State) (input other : Array UInt8) (h : ∀ target, i ≠ .read target) :
    s.fault? other i = s.fault? input i ∧ s.perform other i = s.perform input i := by
  cases i with
  | read target => exact absurd rfl (h target)
  | _ => exact ⟨rfl, rfl⟩

/-- An instruction leaves the cursor alone, or moves it on over one byte of the input. -/
theorem cursor_exec (s : State) (input : Array UInt8) :
    (s.exec input).1.cursor = s.cursor ∨
      s.cursor < input.size ∧ (s.exec input).1.cursor = s.cursor + 1 := by
  rcases s.exec_cases input with ⟨-, he⟩ | ⟨i, hi, ⟨fault, -, he⟩ | ⟨hf, he⟩⟩
  · exact .inl (by rw [he]; rfl)
  · exact .inl (by rw [he]; rfl)
  · have frame := frame_perform (fun a => Instruction.address_lt_of_ofWord? hi) hf
    rw [he]
    cases i with
    | read target => exact .inr ⟨Nat.lt_of_not_le (ite_fault_eq_none_iff.mp hf), rfl⟩
    | _ => exact .inl frame.cursor

/-- **An instruction sees the input up to the cursor that it leaves**, unless it faults at the end of the
input. -/
theorem exec_of_agree (h : AgreeUpTo input other (s.exec input).1.cursor)
    (hf : ∀ pc, (s.exec input).2 ≠ .error (.endOfInput pc)) : s.exec other = s.exec input := by
  rcases s.exec_cases input with ⟨hi, he⟩ | ⟨i, hi, ⟨fault, hfault, he⟩ | ⟨hnone, he⟩⟩
  · rw [he, exec_of_none other hi]
  · rw [he] at hf ⊢
    have unread : ∀ target, i ≠ .read target := by
      rintro target rfl
      obtain ⟨-, hfault⟩ := Option.ite_none_right_eq_some.mp hfault
      exact hf s.pc (congrArg Except.error (Option.some.inj hfault).symm)
    rw [exec_of_fault hi ((same_of_ne_read s input other unread).1.trans hfault)]
  · rw [he] at h ⊢
    by_cases hread : ∃ target, i = .read target
    · -- the read has moved the cursor on over its byte, so the inputs agree on that byte too
      obtain ⟨target, rfl⟩ := hread
      have more : s.cursor < other.size := h.le_size
      have byte : other[s.cursor]? = input[s.cursor]? := h.getElem?_eq (Nat.lt_succ_self s.cursor)
      have same : s.advance.perform other (.read target) = s.advance.perform input (.read target) := by
        have cursor : s.advance.cursor = s.cursor := rfl
        simp only [perform, cursor, byte]
      rw [exec_of_ok hi (ite_fault_eq_none_iff.mpr (Nat.not_le.mpr more)), same]
    · have unread := not_exists.mp hread
      rw [exec_of_ok hi ((same_of_ne_read s input other unread).1.trans hnone),
        (same_of_ne_read s.advance input other unread).2]

end State

namespace Run

/-! ### One call -/

/-- The run on another input. -/
def withInput (r : Run) (other : Array UInt8) : Run := { r with input := other }

theorem beginCycle_withInput (r : Run) (other : Array UInt8) :
    (r.withInput other).beginCycle = (r.beginCycle.1.withInput other, r.beginCycle.2) := by
  by_cases inside : r.state.isInMemory = true
  · by_cases spent : r.budget < r.state.ticks + 1
    · simp [beginCycle, withInput, inside, spent, abort]
    · simp [beginCycle, withInput, inside, spent]
  · simp [beginCycle, withInput, inside, conclude]

theorem cursor_beginCycle (r : Run) : r.beginCycle.1.state.cursor = r.state.cursor :=
  beginCycle_cases r (fun _ => rfl) (fun _ _ => rfl) (fun _ _ => rfl)

theorem cursor_step (r : Run) :
    r.step.1.state.cursor = r.state.cursor ∨
      r.state.cursor < r.input.size ∧ r.step.1.state.cursor = r.state.cursor + 1 := by
  have exec := r.state.cursor_exec r.input
  refine step_cases r ?ready ?running ?halted ?error ?ended ?faulted
  case ready => exact fun _ => .inl (cursor_beginCycle r)
  case running =>
    intro s _ he
    rw [he] at exec
    rwa [cursor_beginCycle]
  case halted =>
    intro s _ he
    rwa [he] at exec
  case error =>
    intro s fault _ he
    rwa [he] at exec
  case ended => exact fun _ => .inl rfl
  case faulted => exact fun _ _ => .inl rfl

/-- **One call** does the same on two inputs that agree up to the cursor that it leaves. -/
theorem step_withInput {r : Run} {other : Array UInt8}
    (hf : ∀ pc, r.step.2 ≠ .error (.endOfInput pc))
    (h : AgreeUpTo r.input other r.step.1.state.cursor) :
    (r.withInput other).step = (r.step.1.withInput other, r.step.2) := by
  have exec : ∀ s result, r.state.exec r.input = (s, result) →
      (∀ pc, result ≠ .error (.endOfInput pc)) → AgreeUpTo r.input other s.cursor →
        r.state.exec other = (s, result) := by
    intro s result he hresult hs
    rw [← he]
    exact State.exec_of_agree (by rwa [he]) (by rwa [he])
  revert hf h
  refine step_cases r ?ready ?running ?halted ?error ?ended ?faulted
  case ready =>
    intro hp _ _
    rw [step_of_ready (r := r.withInput other) hp, beginCycle_withInput]
  case running =>
    intro s hp he _ h
    rw [cursor_beginCycle] at h
    rw [step_of_running (r := r.withInput other) hp (exec s _ he (by simp) h)]
    exact beginCycle_withInput { r with state := s, phase := .ready } other
  case halted =>
    intro s hp he _ h
    rw [step_of_halted (r := r.withInput other) hp (exec s _ he (by simp) h)]
    rfl
  case error =>
    intro s fault hp he hf h
    have known : ∀ pc, (.error fault : Except Fault Progress) ≠ .error (.endOfInput pc) := by
      intro pc hpc
      exact hf pc (congrArg Except.error (Except.error.inj hpc))
    rw [step_of_exec_error (r := r.withInput other) hp (exec s _ he known h)]
    rfl
  case ended => exact fun hp _ _ => step_of_over (r := r.withInput other) hp
  case faulted => exact fun fault hp _ _ => step_of_faulted (r := r.withInput other) hp

/-! ### All calls -/

theorem cursor_after_mono (r : Run) {m n : Nat} (h : m ≤ n) :
    (r.after m).state.cursor ≤ (r.after n).state.cursor := by
  induction h with
  | refl => exact Nat.le_refl _
  | @step n _ ih =>
    have moved := (r.after n).cursor_step
    rw [after]
    omega

theorem cursor_after_le {r : Run} (h : r.state.cursor ≤ r.input.size) (n : Nat) :
    (r.after n).state.cursor ≤ r.input.size := by
  induction n with
  | zero => exact h
  | succ n ih =>
    have moved := (r.after n).cursor_step
    rw [(r.same_after n).1] at moved
    rw [after]
    omega

/-- **All calls** do the same on two inputs that agree up to the cursor that they leave. -/
theorem after_withInput {r : Run} {other : Array UInt8} {n : Nat}
    (hf : ∀ m < n, ∀ pc, (r.after m).step.2 ≠ .error (.endOfInput pc))
    (h : AgreeUpTo r.input other (r.after n).state.cursor) :
    (r.withInput other).after n = (r.after n).withInput other ∧
      ∀ m < n, ((r.withInput other).after m).step.2 = (r.after m).step.2 := by
  induction n with
  | zero => exact ⟨rfl, nofun⟩
  | succ n ih =>
    have before := h.mono (r.cursor_after_mono n.le_succ)
    obtain ⟨here, results⟩ := ih (fun m hm => hf m (Nat.lt_succ_of_lt hm)) before
    have step : ((r.after n).withInput other).step =
        ((r.after (n + 1)).withInput other, (r.after n).step.2) := by
      refine step_withInput (hf n n.lt_succ_self) ?_
      rw [(r.same_after n).1]
      exact h
    refine ⟨?_, fun m hm => ?_⟩
    · rw [after, here, step]
    · rcases Nat.lt_succ_iff_lt_or_eq.mp hm with hm | rfl
      · exact results m hm
      · rw [here, step]

/-! ### The end of a run -/

theorem phase_after_of_error {r : Run} {m n : Nat} {fault : Fault}
    (h : (r.after m).step.2 = .error fault) (hmn : m < n) : (r.after n).phase = .faulted fault := by
  have left := answer?_step (r.after m)
  rw [← after, h, answer?_eq_faulted_iff] at left
  have closed : (r.after (m + 1)).isOver = true := by simp [isOver, left]
  rw [after_of_isOver closed hmn, left]

/-- The outcome of a run that has ended. -/
def outcome? (r : Run) : Option (Except Fault State) :=
  match r.phase with
  | .ready | .shown => none
  | .over => some (.ok r.state)
  | .faulted fault => some (.error fault)

theorem outcome?_eq_none_of_not_isOver {r : Run} (h : r.isOver = false) : r.outcome? = none := by
  unfold isOver at h
  unfold outcome?
  split at h <;> simp_all

theorem state_of_outcome? {r : Run} {t : State} (h : r.outcome? = some (.ok t)) : r.state = t := by
  unfold outcome? at h
  split at h
  · cases h
  · cases h
  · exact Except.ok.inj (Option.some.inj h)
  · cases h

theorem ending?_eq_outcome? {r : Run} (hr : r.isOver = false) (n : Nat) :
    r.ending? n = (r.after n).outcome? := by
  induction n generalizing r with
  | zero => exact (outcome?_eq_none_of_not_isOver hr).symm
  | succ n ih =>
    have left := answer?_step r
    have closed := isOver_step r
    have kept (h : r.step.1.isOver = true) : r.step.1.after n = r.step.1 :=
      after_of_isOver (m := 0) h (Nat.zero_le n)
    rw [after_succ']
    rcases hs : r.step with ⟨next, fault | ⟨t, _ | _⟩⟩
    · rw [hs] at left closed kept
      rw [kept closed, outcome?, answer?_eq_faulted_iff.mp left]
      simp [ending?, hs]
    · rw [hs] at closed
      simpa [ending?, hs] using ih closed
    · rw [hs] at left closed kept
      obtain ⟨hp, rfl⟩ : next.phase = .over ∧ next.state = t := answer?_eq_over_iff.mp left
      rw [kept closed, outcome?, hp]
      simp [ending?, hs]

/-! ### The law of two inputs -/

/-- As far as the inputs of two runs of one program agree, the first run says what the second one does. -/
structure Determines (r r' : Run) : Prop where
  /-- The runs are the same in every call as long as the inputs agree on what the first run has read. -/
  same : ∀ n, (∀ m < n, ∀ pc, (r.after m).step.2 ≠ .error (.endOfInput pc)) →
    AgreeUpTo r.input r'.input (r.after n).state.cursor →
      (∀ m < n, (r'.after m).step.2 = (r.after m).step.2) ∧
        (r'.after n).state = (r.after n).state ∧ (r'.after n).phase = (r.after n).phase
  /-- If the first run has ended, then all later calls are the same as well. -/
  ended : ∀ n, (r.after n).isOver = true →
    (∀ m pc, (r.after m).step.2 ≠ .error (.endOfInput pc)) →
      AgreeUpTo r.input r'.input (r.after n).state.cursor →
        ∀ m, (r'.after m).step.2 = (r.after m).step.2
  /-- On a longer input every snapshot is the same, also if the first run goes on to fault at the end of
  its input. -/
  snapshot : r.input.toList <+: r'.input.toList → ∀ m snapshot,
    (r.after m).step.2 = .ok snapshot → (r'.after m).step.2 = .ok snapshot

theorem determines_withInput {r : Run} (hc : r.state.cursor ≤ r.input.size) (other : Array UInt8) :
    Determines r (r.withInput other) where
  same := by
    intro n hf h
    obtain ⟨here, results⟩ : (r.withInput other).after n = (r.after n).withInput other ∧ _ :=
      after_withInput hf h
    exact ⟨results, by rw [here]; rfl, by rw [here]; rfl⟩
  ended := by
    intro n closed hf h m
    -- nothing is read after the end, so the inputs also agree on what later calls have read
    have late : r.after (max n (m + 1)) = r.after n := after_of_isOver closed (Nat.le_max_left _ _)
    rw [← late] at h
    exact (after_withInput (fun m _ => hf m) h).2 m (Nat.le_max_right _ _)
  snapshot := by
    intro longer m snapshot hm
    -- a fault would have been kept, so no call up to a snapshot has faulted
    have unread : ∀ j < m + 1, ∀ pc, (r.after j).step.2 ≠ .error (.endOfInput pc) := by
      intro j hj pc hpc
      rcases Nat.lt_succ_iff_lt_or_eq.mp hj with hj | rfl
      · rw [step_of_faulted (phase_after_of_error hpc hj)] at hm
        cases hm
      · rw [hpc] at hm
        cases hm
    have agree := agreeUpTo_of_isPrefix longer (cursor_after_le hc (m + 1))
    exact ((after_withInput unread agree).2 m m.lt_succ_self).trans hm

section Law
variable {image : List UInt8} {memory : Memory} (hm : Image.load image = .ok memory)
include hm

theorem execute_eq_outcome? (input : Array UInt8) (budget : UInt64) :
    execute image input budget =
      match ((Run.ofMemory memory input budget).after (budget.toNat + 1)).outcome? with
      | some (.ok state) => .ok state
      | some (.error fault) => .error (.fault fault)
      | none => .error .unending := by
  have fresh : (Run.ofMemory memory input budget).isOver = false := rfl
  rw [← ending?_eq_outcome? fresh, execute, ofImage_eq_ok hm]
  rfl

theorem execute_of_agree {input other : Array UInt8} {budget : UInt64}
    (hf : ∀ pc, execute image input budget ≠ .error (.fault (.endOfInput pc)))
    (h : AgreeUpTo input other
      ((Run.ofMemory memory input budget).after (budget.toNat + 1)).state.cursor) :
    execute image other budget = execute image input budget := by
  have unread : ∀ m < budget.toNat + 1, ∀ pc,
      ((Run.ofMemory memory input budget).after m).step.2 ≠ .error (.endOfInput pc) := by
    intro m hlt pc hpc
    apply hf pc
    rw [execute_eq_outcome? hm, outcome?, phase_after_of_error hpc hlt]
  have here := (after_withInput unread h).1
  have same : Run.ofMemory memory other budget = (Run.ofMemory memory input budget).withInput other := rfl
  rw [execute_eq_outcome? hm, execute_eq_outcome? hm, same, here]
  rfl

theorem state_of_execute {input : Array UInt8} {budget : UInt64} {t : State}
    (h : execute image input budget = .ok t) :
    ((Run.ofMemory memory input budget).after (budget.toNat + 1)).state = t := by
  rw [execute_eq_outcome? hm] at h
  split at h
  · rename_i state ho
    rw [state_of_outcome? ho]
    exact Except.ok.inj h
  · cases h
  · cases h

/-- **Input that is not read does not matter**: on two inputs that agree as far as the run on the first has
read, the calls of `step` do the same and the outcomes are the same, unless the first run faults at the
end of its input; up to that fault it shows what is shown on every longer input. -/
theorem unread_input (input other : Array UInt8) (budget : UInt64) :
    (∃ r r', Run.ofImage image input budget = .ok r ∧ Run.ofImage image other budget = .ok r' ∧
      r.input = input ∧ r'.input = other ∧ Determines r r') ∧
    (∀ t, execute image input budget = .ok t → AgreeUpTo input other t.cursor →
      execute image other budget = .ok t) ∧
    (input.toList <+: other.toList →
      (∀ pc, execute image input budget ≠ .error (.fault (.endOfInput pc))) →
        execute image other budget = execute image input budget) := by
  have start : (Run.ofMemory memory input budget).state.cursor ≤ input.size := Nat.zero_le _
  refine ⟨⟨_, _, ofImage_eq_ok hm input budget, ofImage_eq_ok hm other budget, rfl, rfl, ?_⟩, ?_, ?_⟩
  · exact determines_withInput start other
  · intro t ht h
    rw [← ht]
    refine execute_of_agree hm (by simp [ht]) ?_
    rwa [state_of_execute hm ht]
  · intro longer hf
    exact execute_of_agree hm hf (agreeUpTo_of_isPrefix longer (cursor_after_le start _))

end Law

/-- A program that reads a byte and halts. -/
def readOnce : List UInt8 := [0x06, 0x00, 0x00, 0x00]

/-- The state in which `readOnce` starts. -/
def onceStart : State := State.ofMemory (Image.memoryOf readOnce)

/-- The state in which `readOnce` has read its byte. -/
def onceRead : State := onceStart.advance.perform #[7] (.read Register.pointerLow)

theorem load_readOnce : Image.load (Image.ofPayload readOnce) = .ok (Image.memoryOf readOnce) :=
  Image.load_eq_ok (by decide)

theorem execute_readOnce :
    execute (Image.ofPayload readOnce) #[7] 2 = .ok (onceRead.advance.withTicks 2) := by
  have small : 2 < UInt64.size - 1 := by decide
  have hsize : readOnce.length ≤ memorySize := by decide
  have read : onceStart.exec #[7] = (onceRead, .ok .running) :=
    State.exec_of_memoryOf readOnce (i := .read Register.pointerLow) rfl hsize (by decide) rfl
  have halt : onceRead.exec #[7] = (onceRead.advance, .ok .halted) :=
    State.exec_of_memoryOf readOnce (i := .halt) rfl hsize (by decide) rfl
  have one : onceStart.execTimes #[7] 1 = onceRead := by
    rw [State.execTimes, State.execTimes, read]
  have halted : onceStart.arrival #[7] 2 = .ok .halted := by rw [State.arrival, one, halt]
  have goes : ∀ m < 2, ¬onceStart.Stops #[7] m := by
    intro m hm
    rw [State.not_stops_iff]
    obtain rfl | rfl : m = 0 ∨ m = 1 := by omega
    · exact ⟨rfl, rfl⟩
    · rw [one, State.arrival, State.execTimes, read]
      exact ⟨rfl, rfl⟩
  have ending : onceStart.ending #[7] 2 = .ok (onceRead.advance.withTicks 2) := by
    rw [State.ending_of_halted halted, State.execTimes, one, halt]
    rfl
  have within : 2 ≤ (2 : UInt64).toNat := Nat.le_refl 2
  have outcome := execute_of_stops load_readOnce #[7] (State.stops_of_halted halted) goes small within
  rwa [show State.ofMemory (Image.memoryOf readOnce) = onceStart from rfl, ending] at outcome

/-- The run of `readOnce` on one byte never sees a second one. -/
theorem unread_input_once :
    ∃ t, execute (Image.ofPayload readOnce) #[7] 2 = .ok t ∧ t.cursor = 1 ∧
      execute (Image.ofPayload readOnce) #[7, 9] 2 = .ok t := by
  have agree : AgreeUpTo #[7] #[7, 9] 1 := ⟨by decide, by decide⟩
  have same := (unread_input load_readOnce #[7] #[7, 9] 2).2.1 _ execute_readOnce agree
  exact ⟨_, execute_readOnce, rfl, same⟩

end Run

end ByteMachine
