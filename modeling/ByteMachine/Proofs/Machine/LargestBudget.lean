import ByteMachine.Proofs.Machine.HandOut
import ByteMachine.Proofs.Machine.UnreadInput

/-!
# The largest budget

The count of cycles is compared with the budget after it has gone up, so a budget cuts a run off by the
count that is one above it. There is no such count above the largest budget of sixty-four bits: a program
that does not come to its end by itself goes on there, its count wraps around to zero, and the run has no
end.

* `ticks_step_cases`: a call leaves the count of cycles or adds one to it. Below the largest budget this
  never wraps (`counts_of_lt`).
* `after_largest`: on the largest budget a run is after `n` calls where the iteration says, for every `n`.
* `ticks_wrap`: the law of all budgets. A jump to itself wraps the count (`ticks_wrap_jump`).
-/

namespace ByteMachine

namespace Run

/-- The largest budget of cycles. -/
def largestBudget : UInt64 := .ofNat (UInt64.size - 1)

/-- The count of cycles is kept or goes up by one with each call of `step`, and does not wrap around. -/
def Counts (r : Run) : Prop :=
  ∀ n, (r.after (n + 1)).state.ticks.toNat = (r.after n).state.ticks.toNat ∨
    (r.after (n + 1)).state.ticks.toNat = (r.after n).state.ticks.toNat + 1

theorem toNat_largestBudget : largestBudget.toNat = UInt64.size - 1 := by
  decide

theorem ne_largest_iff {budget : UInt64} : budget ≠ largestBudget ↔ budget.toNat < UInt64.size - 1 := by
  rw [Ne, ← UInt64.toNat_inj, toNat_largestBudget]
  have below := budget.toNat_lt_size
  omega

/-! ### One call -/

theorem ticks_beginCycle_cases (r : Run) :
    r.beginCycle.1.state.ticks = r.state.ticks ∨ r.beginCycle.1.state.ticks = r.state.ticks + 1 :=
  beginCycle_cases r (fun _ => .inl rfl) (fun _ _ => .inr rfl) (fun _ _ => .inr rfl)

/-- **A call** leaves the count of cycles, or adds one to that of a run that goes on. -/
theorem ticks_step_cases (r : Run) :
    r.step.1.state.ticks = r.state.ticks ∨
      r.isOver = false ∧ r.step.1.state.ticks = r.state.ticks + 1 := by
  have exec := r.state.ticks_exec r.input
  refine step_cases r ?ready ?running ?halted ?error ?ended ?faulted
  case ready =>
    intro hp
    exact (ticks_beginCycle_cases r).imp_right fun h => ⟨isOver_of_ready hp, h⟩
  case running =>
    intro s hp he
    rw [he] at exec
    rw [← exec]
    exact (ticks_beginCycle_cases { r with state := s, phase := .ready }).imp_right
      fun h => ⟨by rw [isOver, hp], h⟩
  case halted =>
    intro s hp he
    rw [he] at exec
    exact .inl exec
  case error =>
    intro s fault hp he
    rw [he] at exec
    exact .inl exec
  case ended => exact fun _ => .inl rfl
  case faulted => exact fun _ _ => .inl rfl

theorem IsBounded.ticks_le_budget {r : Run} (h : r.IsBounded) (hr : r.isOver = false) :
    r.state.ticks.toNat ≤ r.budget.toNat := by
  match hp : r.phase with
  | .ready => exact h.ready hp
  | .shown => exact (h.shown hp).2.2
  | .over => simp [isOver, hp] at hr
  | .faulted fault => simp [isOver, hp] at hr

/-- **Below the largest budget** the count does not wrap. -/
theorem counts_of_lt {r : Run} (h : r.IsBounded) (hb : r.budget.toNat < UInt64.size - 1) : r.Counts := by
  intro n
  rcases ticks_step_cases (r.after n) with kept | ⟨opened, more⟩
  · exact .inl (congrArg UInt64.toNat kept)
  · right
    have within := (h.after hb n).ticks_le_budget opened
    rw [(same_after r n).2] at within
    have small : (r.after n).state.ticks.toNat + 1 < 2 ^ 64 := by
      unfold UInt64.size at hb
      omega
    rw [after, more, UInt64.toNat_add]
    exact Nat.mod_eq_of_lt small

theorem exists_plays_iff {r : Run} :
    (∃ ts ending, r.Plays ts ending) ↔ ∃ n, (r.after n).isOver = true := by
  constructor
  · rintro ⟨ts, ending, plays⟩
    refine ⟨ts.length + 1, ?_⟩
    rw [after, isOver_step, plays.step_of_length_le (Nat.le_refl _), goesOn_closing]
    rfl
  · rintro ⟨n, h⟩
    induction n generalizing r with
    | zero =>
      have kept : r.step.1.isOver = true := by
        rw [step_fst_of_isOver (r := r) h]
        exact h
      rw [isOver_step] at kept
      rcases hs : r.step.2 with fault | ⟨t, _ | _⟩
      · exact ⟨[], _, .fault hs⟩
      · simp [hs, goesOn] at kept
      · exact ⟨[], _, .done hs⟩
    | succ n ih =>
      rw [after_succ'] at h
      obtain ⟨ts, ending, plays⟩ := ih h
      rcases hs : r.step.2 with fault | ⟨t, _ | _⟩
      · exact ⟨[], _, .fault hs⟩
      · exact ⟨t :: ts, ending, .next hs plays⟩
      · exact ⟨[], _, .done hs⟩

/-! ### The largest budget -/

section
variable {s : State} {input : Array UInt8} {n : Nat}

theorem isOver_runAt (s : State) (input : Array UInt8) (budget : UInt64) (n : Nat) :
    (runAt s input budget n).isOver = false := by
  cases n <;> rfl

theorem step_runAt_of_stops (hs : s.ticks = 0) {budget : UInt64} (h : s.Stops input n) :
    (runAt s input budget n).step.1.isOver = true ∧
      (runAt s input budget n).step.1.state.ticks = .ofNat n := by
  rw [step_runAt hs]
  cases ha : s.arrival input n with
  | error fault => exact ⟨rfl, rfl⟩
  | ok progress =>
    cases progress with
    | halted => exact ⟨rfl, rfl⟩
    | running =>
      have outside : (s.execTimes input n).isInMemory = false := by
        rcases h with h | h
        · exact absurd ha h
        · exact h
      simp [beginCycle, conclude, isOver, outside]

/-- On the largest budget a cycle begins within the memory, whatever the count. -/
theorem beginCycle_largest {r : Run} (hb : r.budget = largestBudget)
    (inside : r.state.isInMemory = true) : r.beginCycle.1 =
      { r with state.ticks := r.state.ticks + 1, phase := .shown } := by
  have left : ¬r.budget < r.state.ticks + 1 := by
    rw [UInt64.lt_iff_toNat_lt, hb, toNat_largestBudget]
    have below := (r.state.ticks + 1).toNat_lt_size
    omega
  simp [beginCycle, inside, left]

theorem step_runAt_largest (hs : s.ticks = 0) (h : ¬s.Stops input n) :
    (runAt s input largestBudget n).step.1 = runAt s input largestBudget (n + 1) := by
  have running : s.arrival input n = .ok .running := by
    by_contra hne
    exact h (.inl hne)
  have inside : (s.execTimes input n).isInMemory = true := by
    by_contra hne
    exact h (.inr (by simpa using hne))
  have next : (UInt64.ofNat n) + 1 = .ofNat (n + 1) := (UInt64.ofNat_add n 1).symm
  rw [step_runAt hs, running, runAt, ← next]
  exact beginCycle_largest rfl inside

/-- **On the largest budget** a run goes along the iteration, however long this is. -/
theorem after_largest (hs : s.ticks = 0) (goes : ∀ m < n, ¬s.Stops input m) :
    (runAt s input largestBudget 0).after n = runAt s input largestBudget n := by
  induction n with
  | zero => rfl
  | succ n ih =>
    rw [after, ih fun m hm => goes m (Nat.lt_succ_of_lt hm)]
    exact step_runAt_largest hs (goes n (Nat.lt_succ_self n))

theorem ticks_after_largest (hs : s.ticks = 0) (goes : ∀ m < n, ¬s.Stops input m) :
    ((runAt s input largestBudget 0).after n).state.ticks = .ofNat n := by
  rw [after_largest hs goes]
  cases n with
  | zero => exact hs
  | succ n => rfl

theorem isOver_after_largest_iff (hs : s.ticks = 0) :
    ((runAt s input largestBudget 0).after n).isOver = true ↔ ∃ m < n, s.Stops input m := by
  rcases s.exists_first_stop input n with ⟨m, hm, stops, goes⟩ | goes
  · refine iff_of_true ?_ ⟨m, hm, stops⟩
    have closed : ((runAt s input largestBudget 0).after (m + 1)).isOver = true := by
      rw [after, after_largest hs goes]
      exact (step_runAt_of_stops hs stops).1
    rwa [after_of_isOver closed hm]
  · have never : ¬∃ m < n, s.Stops input m := by
      rintro ⟨m, hm, stops⟩
      exact goes m hm stops
    refine iff_of_false ?_ never
    rw [after_largest hs goes, isOver_runAt]
    exact Bool.false_ne_true

theorem counts_largest_iff (hs : s.ticks = 0) :
    (runAt s input largestBudget 0).Counts ↔ ∃ N < UInt64.size, s.Stops input N := by
  rcases s.exists_first_stop input UInt64.size with ⟨N, hN, stops, goes⟩ | goes
  · refine iff_of_true (fun n => ?_) ⟨N, hN, stops⟩
    rcases Nat.lt_trichotomy n N with hn | rfl | hn
    · -- the counts up to the end of the program are small
      right
      rw [ticks_after_largest hs fun m hm => goes m (by omega),
        ticks_after_largest hs fun m hm => goes m (by omega),
        UInt64.toNat_ofNat_of_lt' (by omega), UInt64.toNat_ofNat_of_lt' (by omega)]
    · left
      rw [ticks_after_largest hs goes, after, after_largest hs goes, (step_runAt_of_stops hs stops).2]
    · left
      have closed := (isOver_after_largest_iff hs).mpr ⟨N, hn, stops⟩
      rw [after_of_isOver closed (Nat.le_succ n)]
  · have never : ¬∃ N < UInt64.size, s.Stops input N := by
      rintro ⟨N, hN, stops⟩
      exact goes N hN stops
    refine iff_of_false (fun counts => ?_) never
    have top := ticks_after_largest (n := UInt64.size - 1) hs fun m hm => goes m (by omega)
    have wrapped := ticks_after_largest hs goes
    have last := counts (UInt64.size - 1)
    rw [Nat.sub_add_cancel (by decide), top, wrapped] at last
    revert last
    decide

end

/-! ### All budgets -/

/-- What the count of cycles and the end of a run have to do with its budget. -/
structure WrapLaw (image : List UInt8) (s : State) (input : Array UInt8) (budget : UInt64) (r : Run) :
    Prop where
  /-- The count wraps only on the largest budget, and there for each program that has not come to its end
  by itself before. -/
  counts_iff : r.Counts ↔ budget ≠ largestBudget ∨ ∃ N < UInt64.size, s.Stops input N
  /-- The loop over `step` has no end on the largest budget, if the program has none. -/
  ends_iff : (∃ ts ending, r.Plays ts ending) ↔ budget ≠ largestBudget ∨ ∃ N, s.Stops input N
  /-- The runs that are given up are those whose count wraps. -/
  unending_iff : execute image input budget = .error .unending ↔ ¬r.Counts
  /-- On the largest budget the count is that of the calls, modulo 2^64, as long as the program goes on. -/
  wraps : budget = largestBudget → ∀ n, (∀ m < n, ¬s.Stops input m) →
    (r.after n).isOver = false ∧ (r.after n).state.ticks = .ofNat n

section
variable {image : List UInt8} {memory : Memory} (hm : Image.load image = .ok memory)
include hm

theorem execute_eq_unending_iff (input : Array UInt8) (budget : UInt64) :
    execute image input budget = .error .unending ↔
      ((Run.ofMemory memory input budget).after (budget.toNat + 1)).isOver = false := by
  rw [execute_eq_outcome? hm]
  generalize (Run.ofMemory memory input budget).after (budget.toNat + 1) = r
  match hp : r.phase with
  | .ready => simp [outcome?, isOver, hp]
  | .shown => simp [outcome?, isOver, hp]
  | .over => simp [outcome?, isOver, hp]
  | .faulted fault => simp [outcome?, isOver, hp]

/-- **Only the largest budget lets the count wrap**: on every other one the count goes up by one at a time
and the run has an end. On the largest one the count wraps exactly for the programs that have not come to
their end within 2^64 cycles, and the run has no end exactly for those that never do. -/
theorem ticks_wrap (input : Array UInt8) (budget : UInt64) :
    ∃ r, Run.ofImage image input budget = .ok r ∧
      WrapLaw image (State.ofMemory memory) input budget r := by
  have hs : (State.ofMemory memory).ticks = 0 := rfl
  refine ⟨_, ofImage_eq_runAt hm input budget, ?_⟩
  rcases ne_or_eq budget largestBudget with other | rfl
  · have hb := ne_largest_iff.mp other
    have counts : (runAt (State.ofMemory memory) input budget 0).Counts :=
      counts_of_lt (isBounded_ofMemory memory input budget) hb
    obtain ⟨n, ending, plays, within, -⟩ := exists_plays input hs hb
    exact
      { counts_iff := iff_of_true counts (.inl other)
        ends_iff := iff_of_true ⟨_, _, plays⟩ (.inl other)
        unending_iff := by
          refine iff_of_false ?_ (not_not_intro counts)
          rw [execute_of_plays (ofImage_eq_runAt hm input budget) plays
            (by rw [State.length_shown]; exact within)]
          cases ending <;> simp [Except.mapError]
        wraps := fun h => absurd h other }
  · exact
      { counts_iff := by simp [counts_largest_iff hs]
        ends_iff := by
          simp only [exists_plays_iff, isOver_after_largest_iff hs, ne_eq, not_true_eq_false, false_or]
          constructor
          · rintro ⟨_, N, _, stops⟩
            exact ⟨N, stops⟩
          · rintro ⟨N, stops⟩
            exact ⟨N + 1, N, N.lt_succ_self, stops⟩
        unending_iff := by
          have start : Run.ofMemory memory input largestBudget =
            runAt (State.ofMemory memory) input largestBudget 0 := rfl
          rw [execute_eq_unending_iff hm, start, counts_largest_iff hs, ← isOver_after_largest_iff hs,
            toNat_largestBudget, Nat.sub_add_cancel (by decide), Bool.not_eq_true]
        wraps := by
          intro _ n goes
          refine ⟨?_, ticks_after_largest hs goes⟩
          rw [after_largest hs goes, isOver_runAt] }

end

/-- A program that halts at once. -/
def haltAtOnce : List UInt8 := [0x00, 0x00]

/-- A program that comes to its end by itself does so on the largest budget, too. -/
theorem ticks_wrap_halt :
    ∃ r, Image.load (Image.ofPayload haltAtOnce) = .ok (Image.memoryOf haltAtOnce) ∧
      Run.ofImage (Image.ofPayload haltAtOnce) #[] largestBudget = .ok r ∧
      WrapLaw (Image.ofPayload haltAtOnce) (State.ofMemory (Image.memoryOf haltAtOnce)) #[]
        largestBudget r ∧ r.Counts ∧ ∃ ts ending, r.Plays ts ending := by
  have loaded : Image.load (Image.ofPayload haltAtOnce) = .ok (Image.memoryOf haltAtOnce) :=
    Image.load_eq_ok (by decide)
  have halt : (State.ofMemory (Image.memoryOf haltAtOnce)).exec #[] =
      ((State.ofMemory (Image.memoryOf haltAtOnce)).advance, .ok .halted) :=
    State.exec_of_memoryOf haltAtOnce (i := .halt) rfl (by decide) (by decide) rfl
  have stops : (State.ofMemory (Image.memoryOf haltAtOnce)).Stops #[] 1 :=
    State.stops_of_halted (by rw [State.arrival, State.execTimes, halt])
  obtain ⟨r, started, law⟩ := ticks_wrap loaded #[] largestBudget
  exact ⟨r, loaded, started, law, law.counts_iff.mpr (.inr ⟨1, by decide, stops⟩),
    law.ends_iff.mpr (.inr ⟨1, stops⟩)⟩

/-- A program that jumps to its only instruction. -/
def jumpToItself : List UInt8 := [0x08, 0x00]

theorem execTimes_jumpToItself (n : Nat) :
    (State.ofMemory (Image.memoryOf jumpToItself)).execTimes #[] n =
        State.ofMemory (Image.memoryOf jumpToItself) ∧
      (State.ofMemory (Image.memoryOf jumpToItself)).arrival #[] n = .ok .running := by
  have again : (State.ofMemory (Image.memoryOf jumpToItself)).exec #[] =
      (State.ofMemory (Image.memoryOf jumpToItself), .ok .running) :=
    State.exec_of_memoryOf jumpToItself (i := .jump 0) rfl (by decide) (by decide) rfl
  induction n with
  | zero => exact ⟨rfl, rfl⟩
  | succ n ih =>
    rw [State.execTimes, State.arrival, ih.1, again]
    exact ⟨rfl, rfl⟩

/-- The jump never comes to its end: after 2^64 calls its count is back at zero, and so on for ever. -/
theorem ticks_wrap_jump :
    ∃ r, Image.load (Image.ofPayload jumpToItself) = .ok (Image.memoryOf jumpToItself) ∧
      Run.ofImage (Image.ofPayload jumpToItself) #[] largestBudget = .ok r ∧
      (r.after (UInt64.size - 1)).state.ticks.toNat = UInt64.size - 1 ∧
      (r.after UInt64.size).state.ticks.toNat = 0 ∧ ¬r.Counts ∧
      (∀ n, (r.after n).isOver = false) ∧ (¬∃ ts ending, r.Plays ts ending) ∧
      execute (Image.ofPayload jumpToItself) #[] largestBudget = .error .unending := by
  have loaded : Image.load (Image.ofPayload jumpToItself) = .ok (Image.memoryOf jumpToItself) :=
    Image.load_eq_ok (by decide)
  have hs : (State.ofMemory (Image.memoryOf jumpToItself)).ticks = 0 := rfl
  have goes : ∀ m, ¬(State.ofMemory (Image.memoryOf jumpToItself)).Stops #[] m := by
    intro m
    obtain ⟨here, running⟩ := execTimes_jumpToItself m
    rw [State.not_stops_iff, here]
    exact ⟨running, rfl⟩
  have opened (n : Nat) : ((runAt (State.ofMemory (Image.memoryOf jumpToItself)) #[]
      largestBudget 0).after n).isOver = false := by
    rw [after_largest hs fun m _ => goes m, isOver_runAt]
  refine ⟨_, loaded, ofImage_eq_runAt loaded #[] largestBudget, ?_, ?_, ?_, opened, ?_, ?_⟩
  · rw [ticks_after_largest hs fun m _ => goes m]
    decide
  · rw [ticks_after_largest hs fun m _ => goes m]
    decide
  · rw [counts_largest_iff hs]
    rintro ⟨N, -, stops⟩
    exact goes N stops
  · rw [exists_plays_iff]
    rintro ⟨n, closed⟩
    exact Bool.false_ne_true ((opened n).symm.trans closed)
  · exact (execute_eq_unending_iff loaded #[] largestBudget).mpr (opened _)

end Run

end ByteMachine
