import ByteMachine.Proofs.Machine.Budget
import ByteMachine.Proofs.Machine.Confinement

/-!
# What a run hands out

A call of `step` carries out one instruction or none, and `pending?` says which (`step_eq`). A run that
shows some states and then ends answers these states in order (`Plays.step_of_getElem?`), and from then
on its end, in every later call (`Plays.step_of_length_le`).

Since a run keeps the answer of its last call, its answers also say where it is between two calls: whether
it is over (`Plays.isOver_after_iff`), and in which state the next call carries out an instruction, if it
carries out one (`Plays.pending?_after`).

The run of an image shows a part of the iteration of `exec` (`exists_plays_ofImage`).
-/

namespace ByteMachine

namespace Run

/-! ### Calls that carry out an instruction -/

/-- The state in which the next call of `step` carries out an instruction, if it carries out one. -/
def pending? (r : Run) : Option State := if r.phase = .shown then some r.state else none

/-- How a call of `step` goes on from what came of the instruction that it carried out. -/
def resume (r : Run) : State × Except Fault Progress → Run × Except Fault Snapshot
  | (s, .ok .running) => beginCycle { r with state := s, phase := .ready }
  | (s, .ok .halted) => conclude { r with state := s }
  | (s, .error fault) => abort { r with state := s } fault

/-- A call of `step` that carries out no instruction. -/
def idle (r : Run) : Run × Except Fault Snapshot :=
  match r.phase with
  | .ready | .shown => r.beginCycle
  | .over => (r, .ok ⟨r.state, true⟩)
  | .faulted fault => (r, .error fault)

/-- **A call carries out one instruction or none**, in the pending state. -/
theorem step_eq (r : Run) : r.step =
    match r.pending? with
    | some s => r.resume (s.exec r.input)
    | none => r.idle := by
  refine step_cases r ?ready ?running ?halted ?error ?ended ?faulted
  case ready => exact fun hp => by simp [pending?, idle, hp]
  case running => exact fun s hp he => by simp [pending?, resume, hp, he]
  case halted => exact fun s hp he => by simp [pending?, resume, hp, he]
  case error => exact fun s fault hp he => by simp [pending?, resume, hp, he]
  case ended => exact fun hp => by simp [pending?, idle, hp]
  case faulted => exact fun fault hp => by simp [pending?, idle, hp]

theorem pending?_eq_some_iff {r : Run} {t : State} :
    r.pending? = some t ↔ r.answer? = some (.ok ⟨t, false⟩) := by
  rw [answer?_eq_shown_iff, pending?]
  split <;> simp [*]

theorem state_of_pending? {r : Run} {t : State} (h : r.pending? = some t) : r.state = t :=
  Option.some.inj (Option.ite_none_right_eq_some.mp h).2

theorem pending?_step {r : Run} {t : State} (h : r.step.2 = .ok ⟨t, false⟩) :
    r.step.1.pending? = some t :=
  pending?_eq_some_iff.mpr (by rw [answer?_step, h])

theorem isOver_of_ready {r : Run} (h : r.phase = .ready) : r.isOver = false := by
  rw [isOver, h]

/-! ### After the end -/

theorem step_of_isOver {r : Run} {result : Except Fault Snapshot} (h : r.isOver = true)
    (left : r.answer? = some result) : r.step = (r, result) := by
  have again := answer?_step r
  rw [step_fst_of_isOver h, left] at again
  exact Prod.ext (step_fst_of_isOver h) (Option.some.inj again).symm

theorem step_snd_of_ends {r : Run} (h : goesOn r.step.2 = false) (n : Nat) :
    (r.after n).step.2 = r.step.2 := by
  have closed : r.step.1.isOver = true := by
    rw [isOver_step, h]
    rfl
  cases n with
  | zero => rfl
  | succ n =>
    have kept : r.step.1.after n = r.step.1 := after_of_isOver (m := 0) closed (Nat.zero_le n)
    rw [after_succ', kept, step_of_isOver closed (answer?_step r)]

/-! ### Results in order -/

/-- The result by which a run ends. -/
def closing (ending : Except Fault State) : Except Fault Snapshot := ending.map fun t => ⟨t, true⟩

theorem goesOn_closing (ending : Except Fault State) : goesOn (closing ending) = false := by
  cases ending <;> rfl

section
variable {r : Run} {ts : List State} {ending : Except Fault State}

theorem Plays.step_of_nil (h : r.Plays [] ending) : r.step.2 = closing ending := by
  cases h with
  | fault h => exact h
  | done h => exact h

/-- **The calls answer the states in order**, -/
theorem Plays.step_of_getElem? (h : r.Plays ts ending) {n : Nat} {t : State} (ht : ts[n]? = some t) :
    (r.after n).step.2 = .ok ⟨t, false⟩ := by
  induction h generalizing n with
  | fault h => simp at ht
  | done h => simp at ht
  | next h tail ih =>
    cases n with
    | zero =>
      obtain rfl := Option.some.inj ht
      exact h
    | succ n =>
      rw [after_succ']
      exact ih ht

/-- and then the end of the run, for ever. -/
theorem Plays.step_of_length_le (h : r.Plays ts ending) {n : Nat} (hn : ts.length ≤ n) :
    (r.after n).step.2 = closing ending := by
  induction ts generalizing r n with
  | nil =>
    have first := h.step_of_nil
    rw [step_snd_of_ends (by rw [first, goesOn_closing]), first]
  | cons t ts ih =>
    cases h with
    | next h tail =>
      obtain ⟨n, rfl⟩ := Nat.exists_eq_succ_of_ne_zero (Nat.ne_zero_of_lt hn)
      rw [after_succ']
      exact ih tail (Nat.le_of_succ_le_succ hn)

/-! ### Between two calls -/

theorem Plays.answer?_of_getElem? (h : r.Plays ts ending) {n : Nat} {t : State}
    (ht : ts[n]? = some t) : (r.after (n + 1)).answer? = some (.ok ⟨t, false⟩) := by
  rw [after, answer?_step, h.step_of_getElem? ht]

theorem Plays.answer?_of_length_le (h : r.Plays ts ending) {n : Nat} (hn : ts.length ≤ n) :
    (r.after (n + 1)).answer? = some (closing ending) := by
  rw [after, answer?_step, h.step_of_length_le hn]

theorem Plays.isOver_after_iff (h : r.Plays ts ending) (hr : r.isOver = false) (n : Nat) :
    (r.after n).isOver = true ↔ ts.length < n := by
  cases n with
  | zero => simp [after, hr]
  | succ n =>
    rw [after, isOver_step]
    rcases Nat.lt_or_ge n ts.length with hn | hn
    · rw [h.step_of_getElem? (List.getElem?_eq_getElem hn)]
      simp [goesOn, Nat.not_lt.mpr hn]
    · rw [h.step_of_length_le hn, goesOn_closing]
      simp [Nat.lt_succ_of_le hn]

/-- **Each state that is shown is pending until the next call**, and nothing else is. -/
theorem Plays.pending?_after (h : r.Plays ts ending) (n : Nat) : (r.after (n + 1)).pending? = ts[n]? := by
  rcases Nat.lt_or_ge n ts.length with hn | hn
  · have shown := List.getElem?_eq_getElem hn
    rw [shown, pending?_eq_some_iff]
    exact h.answer?_of_getElem? shown
  · rw [List.getElem?_eq_none hn]
    refine Option.eq_none_iff_forall_ne_some.mpr fun t ht => ?_
    rw [pending?_eq_some_iff, h.answer?_of_length_le hn] at ht
    cases ending <;> simp [closing, Except.map] at ht

theorem Plays.state_after {t : State} (h : r.Plays ts (.ok t)) :
    (r.after (ts.length + 1)).state = t :=
  (answer?_eq_over_iff.mp (h.answer?_of_length_le (Nat.le_refl _))).2

end

/-! ### Runs of images -/

section
variable {s : State} {input : Array UInt8} {budget : UInt64} {n : Nat}

theorem ticks_of_shown (hn : n < UInt64.size) {i : Nat} {t : State}
    (ht : (s.shown input n)[i]? = some t) : t.ticks.toNat = i + 1 := by
  rw [State.shown, List.getElem?_map, Option.map_eq_some_iff] at ht
  obtain ⟨m, hm, rfl⟩ := ht
  obtain ⟨hi, rfl⟩ := List.getElem?_eq_some_iff.mp hm
  rw [List.length_range] at hi
  rw [List.getElem_range, State.ticks_withTicks]
  exact UInt64.toNat_ofNat_of_lt' (by omega)

/-- The call that ends the program leaves the count of cycles, and any other call adds one to it. -/
theorem ticks_step_runAt (hs : s.ticks = 0) (hb : budget.toNat < UInt64.size - 1)
    (hn : n ≤ budget.toNat) :
    (runAt s input budget n).step.1.state.ticks = .ofNat (if s.Stops input n then n else n + 1) := by
  rw [step_runAt hs]
  cases ha : s.arrival input n with
  | error fault =>
    have stops : s.Stops input n := .inl (by simp [ha])
    rw [if_pos stops]
    rfl
  | ok progress =>
    cases progress with
    | halted =>
      rw [if_pos (State.stops_of_halted ha)]
      rfl
    | running =>
      have stops : s.Stops input n ↔ (s.execTimes input n).isInMemory = false := by
        simp [State.Stops, ha]
      have small : n + 1 < UInt64.size := by omega
      simp only [beginCycle_withTicks small hn, stops]
      split
      · rfl
      · split
        · rfl
        · rfl

end

/-- **The run of an image** shows the first states of the iteration, as many as it has ticks in the end
and its budget allows. -/
theorem exists_plays_ofImage {image : List UInt8} {memory : Memory} {budget : UInt64}
    (hm : Image.load image = .ok memory) (input : Array UInt8) (hb : budget.toNat < UInt64.size - 1) :
    ∃ r n ending, Run.ofImage image input budget = .ok r ∧ r.phase = .ready ∧ r.state.output = #[] ∧
      r.input = input ∧ r.budget = budget ∧
      r.Plays ((State.ofMemory memory).shown input n) ending ∧
      n = min (r.after (n + 1)).state.ticks.toNat budget.toNat := by
  have hs : (State.ofMemory memory).ticks = 0 := rfl
  obtain ⟨n, ending, plays, within, goes, last⟩ := exists_plays input hs hb
  refine ⟨_, n, ending, ofImage_eq_runAt hm input budget, rfl, rfl, rfl, rfl, plays, ?_⟩
  have opened : ((runAt (State.ofMemory memory) input budget 0).after n).isOver = false := by
    have ended := plays.isOver_after_iff rfl n
    rw [State.length_shown] at ended
    simpa using ended
  rw [after, (after_eq_runAt hs hb opened).1, ticks_step_runAt hs hb within]
  by_cases stops : (State.ofMemory memory).Stops input n
  · rw [if_pos stops, UInt64.toNat_ofNat_of_lt' (by omega), Nat.min_eq_left within]
  · have spent : n = budget.toNat := last.resolve_right stops
    rw [if_neg stops, UInt64.toNat_ofNat_of_lt' (by omega)]
    omega

end Run

end ByteMachine
