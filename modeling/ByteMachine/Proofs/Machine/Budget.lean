import Mathlib.Data.Nat.Find
import ByteMachine.Machine.Outcome
import ByteMachine.Proofs.Machine.Iteration

/-!
# The budget only cuts off

Runs of one image on different budgets show the same states and differ only in where they are cut off.
Where a program comes to its end (`Stops`) is read off the iteration of `exec`, without a budget. If it
does so after `N` instructions, then every budget of `N` cycles or more leads to the same outcome, and
every smaller one is exhausted; else every budget is.

* `Plays` is the loop over `step` with no limit on the number of calls, and what it collects.
* `plays_of_stops` and `plays_of_not_stops` say how a run plays on each side of the threshold.
* `budget_threshold` is the law of all budgets.
-/

namespace ByteMachine

namespace State

variable {s : State} {input : Array UInt8} {budget : UInt64} {n : Nat}

/-- The program comes to its end with the first `n` instructions: by what came of the last of them, or
outside the memory. -/
def Stops (s : State) (input : Array UInt8) (n : Nat) : Prop :=
  s.arrival input n ≠ .ok .running ∨ (s.execTimes input n).isInMemory = false

instance (s : State) (input : Array UInt8) : DecidablePred (s.Stops input) :=
  fun _ => inferInstanceAs (Decidable (_ ∨ _))

theorem exists_first_stop (s : State) (input : Array UInt8) (bound : Nat) :
    (∃ N < bound, s.Stops input N ∧ ∀ m < N, ¬s.Stops input m) ∨ ∀ m < bound, ¬s.Stops input m := by
  by_cases h : ∃ m, m < bound ∧ s.Stops input m
  · obtain ⟨below, stops⟩ := Nat.find_spec h
    refine .inl ⟨Nat.find h, below, stops, fun m hm hstops => ?_⟩
    exact Nat.find_min h hm ⟨Nat.lt_trans hm below, hstops⟩
  · exact .inr fun m hm hstops => h ⟨m, hm, hstops⟩

theorem not_stops_iff : ¬s.Stops input n ↔
    s.arrival input n = .ok .running ∧ (s.execTimes input n).isInMemory = true := by
  rw [Stops, not_or, not_not, Bool.not_eq_false]

theorem stops_of_halted (h : s.arrival input n = .ok .halted) : s.Stops input n :=
  .inl (by rw [h]; exact nofun)

/-- The outcome of a program that comes to its end with the first `n` instructions. -/
def ending (s : State) (input : Array UInt8) (n : Nat) : Except Fault State :=
  (s.arrival input n).map fun _ => (s.execTimes input n).withTicks (.ofNat n)

theorem ending_of_halted (h : s.arrival input n = .ok .halted) :
    s.ending input n = .ok ((s.execTimes input n).withTicks (.ofNat n)) := by
  rw [ending, h]
  rfl

/-- The states that a run shows in its first `n` cycles. -/
def shown (s : State) (input : Array UInt8) (n : Nat) : List State :=
  (List.range n).map fun m => (s.execTimes input m).withTicks (.ofNat (m + 1))

@[simp] theorem length_shown (s : State) (input : Array UInt8) (n : Nat) :
    (s.shown input n).length = n := by
  simp [shown]

theorem shown_append (s : State) (input : Array UInt8) {m n : Nat} (h : m ≤ n) :
    s.shown input m <+: s.shown input n := by
  obtain ⟨k, rfl⟩ := Nat.exists_eq_add_of_le h
  rw [shown, shown, List.range_add, List.map_append]
  exact List.prefix_append _ _

theorem answer_of_stops (h : s.Stops input n) (budget : UInt64) :
    s.answer input budget n = (s.ending input n).map fun t => ⟨t, true⟩ := by
  unfold answer ending
  dsimp only
  cases ha : s.arrival input n with
  | error fault => rfl
  | ok progress =>
    cases progress with
    | halted => rfl
    | running =>
      have outside : (s.execTimes input n).isInMemory = false := by
        rcases h with h | h
        · exact absurd ha h
        · exact h
      simp only [outside, if_true]
      rfl

theorem answer_of_not_stops (h : ¬s.Stops input n) :
    s.answer input budget n =
      if n = budget.toNat then .error (.ticksExhausted budget)
      else .ok ⟨(s.execTimes input n).withTicks (.ofNat (n + 1)), false⟩ := by
  obtain ⟨running, inside⟩ := not_stops_iff.mp h
  simp [answer, running, inside]

theorem ticks_of_ending {t : State} (hn : n < UInt64.size) (h : s.ending input n = .ok t) :
    t.ticks.toNat = n := by
  unfold ending at h
  cases ha : s.arrival input n with
  | error fault => simp [ha, Except.map] at h
  | ok progress =>
    rw [ha] at h
    obtain rfl := Except.ok.inj h
    exact UInt64.toNat_ofNat_of_lt' hn

theorem ending_eq_error_iff {fault : Fault} :
    s.ending input n = .error fault ↔ s.arrival input n = .error fault := by
  unfold ending
  cases s.arrival input n with
  | error fault' => simp [Except.map]
  | ok progress => simp [Except.map]

end State

namespace Run

/-! ### The loop over `step` -/

/-- The loop over `step`, with no limit on the number of calls: the states that it is shown until the
run ends, and how it ends. It takes one call for each state, and one for the end. -/
inductive Plays : Run → List State → Except Fault State → Prop
  | fault {r : Run} {fault : Fault} (h : r.step.2 = .error fault) : Plays r [] (.error fault)
  | done {r : Run} {t : State} (h : r.step.2 = .ok ⟨t, true⟩) : Plays r [] (.ok t)
  | next {r : Run} {t : State} {ts : List State} {ending : Except Fault State}
    (h : r.step.2 = .ok ⟨t, false⟩) (tail : Plays r.step.1 ts ending) : Plays r (t :: ts) ending

theorem Plays.ending? {r : Run} {ts : List State} {ending : Except Fault State}
    (h : r.Plays ts ending) : r.ending? (ts.length + 1) = some ending := by
  induction h with
  | @fault r fault h =>
    rcases hs : r.step with ⟨next, result⟩
    rw [hs] at h
    subst h
    simp [Run.ending?, hs]
  | @done r t h =>
    rcases hs : r.step with ⟨next, result⟩
    rw [hs] at h
    subst h
    simp [Run.ending?, hs]
  | @next r t ts ending h tail ih =>
    rcases hs : r.step with ⟨next, result⟩
    rw [hs] at h ih
    subst h
    simpa [Run.ending?, hs] using ih

theorem Plays.observed {r : Run} {ts : List State} {ending : Except Fault State}
    (h : r.Plays ts ending) (k : Nat) : r.observed (ts.length + 1 + k) = ts := by
  induction h with
  | @fault r fault h =>
    rcases hs : r.step with ⟨next, result⟩
    rw [hs] at h
    subst h
    rw [List.length_nil, Nat.zero_add, Nat.add_comm]
    simp [Run.observed, hs]
  | @done r t h =>
    rcases hs : r.step with ⟨next, result⟩
    rw [hs] at h
    subst h
    rw [List.length_nil, Nat.zero_add, Nat.add_comm]
    simp [Run.observed, hs]
  | @next r t ts ending h tail ih =>
    rcases hs : r.step with ⟨next, result⟩
    rw [hs] at h ih
    subst h
    rw [List.length_cons, Nat.add_right_comm (ts.length + 1)]
    simpa [Run.observed, hs] using ih

theorem Plays.shown_unique {r : Run} {ts us : List State} {e f : Except Fault State}
    (h : r.Plays ts e) (h' : r.Plays us f) : ts = us := by
  have same : ts.length + 1 + us.length = us.length + 1 + ts.length := by omega
  rw [← h.observed us.length, same, h'.observed]

/-! ### Both sides of the threshold -/

section Threshold
variable {s : State} {input : Array UInt8} {budget : UInt64} {n : Nat}

/-- A run shows the states of the iteration one after another, up to a call that ends it. -/
theorem plays_runAt (hs : s.ticks = 0) (small : n < UInt64.size - 1) (hn : n ≤ budget.toNat)
    (goes : ∀ m < n, ¬s.Stops input m) {ending : Except Fault State}
    (last : (runAt s input budget n).Plays [] ending) (k m : Nat) (hk : m + k = n) :
    (runAt s input budget m).Plays
      ((List.range' m k).map fun m => (s.execTimes input m).withTicks (.ofNat (m + 1))) ending := by
  induction k generalizing m with
  | zero =>
    obtain rfl : m = n := hk
    exact last
  | succ k ih =>
    have within : m ≤ budget.toNat := by omega
    obtain ⟨result, -, next⟩ := step_runAt_of_le input hs (by omega) within
    rw [State.answer_of_not_stops (goes m (by omega)), if_neg (by omega)] at result
    have opened : (runAt s input budget m).step.1.isOver = false := by
      rw [isOver_step, result]
      rfl
    have tail := ih (m + 1) (by omega)
    rw [← (next opened).1] at tail
    exact .next result tail

/-- **Within the budget**, a program comes to its end. -/
theorem plays_of_stops (hs : s.ticks = 0) (small : n < UInt64.size - 1) (hn : n ≤ budget.toNat)
    (stops : s.Stops input n) (goes : ∀ m < n, ¬s.Stops input m) :
    (runAt s input budget 0).Plays (s.shown input n) (s.ending input n) := by
  have last : (runAt s input budget n).Plays [] (s.ending input n) := by
    have result := (step_runAt_of_le input hs (by omega) hn).1
    rw [State.answer_of_stops stops] at result
    cases he : s.ending input n with
    | error fault =>
      rw [he] at result
      exact .fault result
    | ok t =>
      rw [he] at result
      exact .done result
  rw [State.shown, List.range_eq_range']
  exact plays_runAt hs small hn goes last n 0 (Nat.zero_add n)

/-- **A budget within the program** is exhausted. -/
theorem plays_of_not_stops (hs : s.ticks = 0) (hb : budget.toNat < UInt64.size - 1)
    (goes : ∀ m ≤ budget.toNat, ¬s.Stops input m) :
    (runAt s input budget 0).Plays (s.shown input budget.toNat) (.error (.ticksExhausted budget)) := by
  have last : (runAt s input budget budget.toNat).Plays [] (.error (.ticksExhausted budget)) := by
    have result := (step_runAt_spec input hs hb (Nat.le_refl _)).1
    rw [State.answer_of_not_stops (goes _ (Nat.le_refl _)), if_pos rfl] at result
    exact .fault result
  rw [State.shown, List.range_eq_range']
  exact plays_runAt hs hb (Nat.le_refl _) (fun m hm => goes m (Nat.le_of_lt hm)) last _ 0 (Nat.zero_add _)

theorem exists_plays (input : Array UInt8) (hs : s.ticks = 0) (hb : budget.toNat < UInt64.size - 1) :
    ∃ n ending, (runAt s input budget 0).Plays (s.shown input n) ending ∧ n ≤ budget.toNat ∧
      (∀ m < n, ¬s.Stops input m) ∧ (n = budget.toNat ∨ s.Stops input n) := by
  rcases s.exists_first_stop input (budget.toNat + 1) with ⟨N, below, stops, goes⟩ | goes
  · have within : N ≤ budget.toNat := Nat.le_of_lt_succ below
    exact ⟨N, _, plays_of_stops hs (by omega) within stops goes, within, goes, .inr stops⟩
  · have plays := plays_of_not_stops hs hb fun m hm => goes m (Nat.lt_succ_of_le hm)
    exact ⟨_, _, plays, Nat.le_refl _, fun m hm => goes m (Nat.lt_succ_of_lt hm), .inl rfl⟩

theorem shown_of_budget_le {budget' : UInt64} (hs : s.ticks = 0) (hle : budget ≤ budget')
    (hb : budget'.toNat < UInt64.size - 1) {ts us : List State} {e f : Except Fault State}
    (h : (runAt s input budget 0).Plays ts e) (h' : (runAt s input budget' 0).Plays us f) :
    ts <+: us := by
  have below : budget.toNat ≤ budget'.toNat := UInt64.le_iff_toNat_le.mp hle
  have hb' : budget.toNat < UInt64.size - 1 := Nat.lt_of_le_of_lt below hb
  obtain ⟨n, _, plays, within, goes, -⟩ := exists_plays input hs hb'
  obtain ⟨n', _, plays', -, -, last⟩ := exists_plays input hs hb
  have hn : n ≤ n' := by
    by_contra hlt
    rcases last with rfl | stops
    · omega
    · exact goes n' (by omega) stops
  rw [h.shown_unique plays, h'.shown_unique plays']
  exact s.shown_append input hn

end Threshold

theorem execute_of_plays {image : List UInt8} {input : Array UInt8} {budget : UInt64} {r : Run}
    {ts : List State} {ending : Except Fault State} (hr : Run.ofImage image input budget = .ok r)
    (h : r.Plays ts ending) (hts : ts.length ≤ r.budget.toNat) :
    execute image input budget = ending.mapError .fault := by
  obtain ⟨k, hk⟩ := Nat.exists_eq_add_of_le (Nat.succ_le_succ hts)
  have limit : r.callLimit = ts.length + 1 + k := hk
  rw [execute, hr]
  dsimp only
  rw [limit, ending?_add h.ending? k]
  cases ending with
  | error fault => rfl
  | ok t => rfl

/-! ### All budgets -/

/-- The number of cycles `N` from which on the budget does not matter, and the outcome there. -/
structure Threshold (image : List UInt8) (memory : Memory) (input : Array UInt8) (N : Nat)
    (outcome : Except Fault State) : Prop where
  pos : 1 ≤ N
  lt : N < UInt64.size - 1
  /-- The final state has as many ticks. -/
  ticks_eq : ∀ t, outcome = .ok t → t.ticks.toNat = N
  /-- A fault comes of the last of the instructions. -/
  fault_eq : ∀ fault, outcome = .error fault → (∀ budget, fault ≠ .ticksExhausted budget) ∧
    (((State.ofMemory memory).execTimes input (N - 1)).exec input).2 = .error fault
  enough : ∀ budget : UInt64, budget.toNat < UInt64.size - 1 → N ≤ budget.toNat →
    execute image input budget = outcome.mapError .fault
  short : ∀ budget : UInt64, budget.toNat < N →
    execute image input budget = .error (.fault (.ticksExhausted budget))

/-- Every budget is exhausted. -/
def Exhausts (image : List UInt8) (input : Array UInt8) : Prop :=
  ∀ budget : UInt64, budget.toNat < UInt64.size - 1 →
    execute image input budget = .error (.fault (.ticksExhausted budget))

/-- What the budgets of an image and an input have to do with each other. -/
structure BudgetLaw (image : List UInt8) (memory : Memory) (input : Array UInt8) : Prop where
  threshold_or : (∃ N outcome, Threshold image memory input N outcome) ∨ Exhausts image input
  not_both : ¬((∃ N outcome, Threshold image memory input N outcome) ∧ Exhausts image input)
  /-- The threshold is the first number of instructions with which the program comes to its end. -/
  threshold_iff : ∀ N outcome, Threshold image memory input N outcome ↔ N < UInt64.size - 1 ∧
    (State.ofMemory memory).Stops input N ∧ (∀ m < N, ¬(State.ofMemory memory).Stops input m) ∧
      outcome = (State.ofMemory memory).ending input N
  exhausts_iff : Exhausts image input ↔ ∀ m < UInt64.size - 1, ¬(State.ofMemory memory).Stops input m
  /-- The loop over `step` ends by the call after as many as the budget has cycles. -/
  plays : ∀ budget : UInt64, budget.toNat < UInt64.size - 1 → ∃ r ts ending,
    Run.ofImage image input budget = .ok r ∧ r.Plays ts ending ∧
      ts.length + 1 ≤ budget.toNat + 1 ∧ execute image input budget = ending.mapError .fault
  /-- A larger budget shows more states, after those of a smaller one. -/
  shown : ∀ (budget budget' : UInt64) (r r' : Run) (ts us : List State) (e f : Except Fault State),
    budget ≤ budget' → budget'.toNat < UInt64.size - 1 → Run.ofImage image input budget = .ok r →
      Run.ofImage image input budget' = .ok r' → r.Plays ts e → r'.Plays us f → ts <+: us

section Threshold
variable {image : List UInt8} {memory : Memory} {input : Array UInt8} {N N' : Nat}
  {outcome outcome' : Except Fault State}

theorem Threshold.execute_eq (h : Threshold image memory input N outcome) :
    execute image input (.ofNat N) = outcome.mapError .fault := by
  have small : N < UInt64.size := Nat.lt_of_lt_of_le h.lt (Nat.sub_le _ _)
  have count : (UInt64.ofNat N).toNat = N := UInt64.toNat_ofNat_of_lt' small
  exact h.enough (.ofNat N) (by rw [count]; exact h.lt) (Nat.le_of_eq count.symm)

theorem Threshold.execute_ne (h : Threshold image memory input N outcome) (budget : UInt64) :
    execute image input (.ofNat N) ≠ .error (.fault (.ticksExhausted budget)) := by
  rw [h.execute_eq]
  cases ho : outcome with
  | ok t => simp [Except.mapError]
  | error fault =>
    have other := (h.fault_eq fault ho).1 budget
    simpa [Except.mapError] using other

theorem Threshold.not_exhausts (h : Threshold image memory input N outcome) :
    ¬Exhausts image input := by
  intro exhausts
  have small : (UInt64.ofNat N).toNat < UInt64.size - 1 := by
    rw [UInt64.toNat_ofNat_of_lt' (Nat.lt_of_lt_of_le h.lt (Nat.sub_le _ _))]
    exact h.lt
  exact h.execute_ne _ (exhausts (.ofNat N) small)

theorem Threshold.le (h : Threshold image memory input N outcome)
    (h' : Threshold image memory input N' outcome') : N' ≤ N := by
  by_contra below
  refine h.execute_ne _ (h'.short (.ofNat N) ?_)
  rw [UInt64.toNat_ofNat_of_lt' (Nat.lt_of_lt_of_le h.lt (Nat.sub_le _ _))]
  exact Nat.lt_of_not_le below

theorem Threshold.unique (h : Threshold image memory input N outcome)
    (h' : Threshold image memory input N' outcome') : N = N' ∧ outcome = outcome' := by
  obtain rfl := Nat.le_antisymm (h'.le h) (h.le h')
  have same := h.execute_eq.symm.trans h'.execute_eq
  refine ⟨rfl, ?_⟩
  cases outcome with
  | ok t =>
    cases outcome' with
    | ok t' => exact congrArg _ (Except.ok.inj same)
    | error fault' => cases same
  | error fault =>
    cases outcome' with
    | ok t' => cases same
    | error fault' => exact congrArg _ (ExecuteError.fault.inj (Except.error.inj same))

end Threshold

section Law
variable {image : List UInt8} {memory : Memory} (hm : Image.load image = .ok memory)
  (input : Array UInt8)
include hm

theorem execute_of_stops {N : Nat} (stops : (State.ofMemory memory).Stops input N)
    (goes : ∀ m < N, ¬(State.ofMemory memory).Stops input m) (small : N < UInt64.size - 1)
    {budget : UInt64} (hN : N ≤ budget.toNat) :
    execute image input budget = ((State.ofMemory memory).ending input N).mapError .fault := by
  have plays := plays_of_stops rfl small hN stops goes
  refine execute_of_plays (ofImage_eq_runAt hm input budget) plays ?_
  rw [State.length_shown]
  exact hN

theorem execute_of_not_stops {budget : UInt64} (hb : budget.toNat < UInt64.size - 1)
    (goes : ∀ m ≤ budget.toNat, ¬(State.ofMemory memory).Stops input m) :
    execute image input budget = .error (.fault (.ticksExhausted budget)) := by
  have plays := plays_of_not_stops rfl hb goes
  refine execute_of_plays (ofImage_eq_runAt hm input budget) plays ?_
  rw [State.length_shown]
  exact Nat.le_refl _

/-- The first number of instructions with which a program comes to its end is its threshold. -/
theorem threshold_of_stops {N : Nat} (hN : N < UInt64.size - 1)
    (stops : (State.ofMemory memory).Stops input N)
    (goes : ∀ m < N, ¬(State.ofMemory memory).Stops input m) :
    Threshold image memory input N ((State.ofMemory memory).ending input N) where
  pos := by
    -- nothing stops a program before its first instruction
    rcases Nat.eq_zero_or_pos N with rfl | hpos
    · rcases stops with h | h
      · exact absurd rfl h
      · cases h
    · exact hpos
  lt := hN
  ticks_eq := fun _ => State.ticks_of_ending (by omega)
  fault_eq := by
    intro fault h
    have arrival := State.ending_eq_error_iff.mp h
    constructor
    · rintro budget rfl
      exact State.arrival_ne_ticksExhausted _ _ _ _ arrival
    · cases N with
      | zero => cases arrival
      | succ N => exact arrival
  enough := fun _ _ hle => execute_of_stops hm input stops goes hN hle
  short := by
    intro budget hlt
    exact execute_of_not_stops hm input (by omega) fun m hle => goes m (by omega)

theorem stops_or_exhausts :
    (∃ N < UInt64.size - 1, (State.ofMemory memory).Stops input N ∧
      ∀ m < N, ¬(State.ofMemory memory).Stops input m) ∨
    (∀ m < UInt64.size - 1, ¬(State.ofMemory memory).Stops input m) ∧ Exhausts image input := by
  rcases (State.ofMemory memory).exists_first_stop input (UInt64.size - 1) with first | goes
  · exact .inl first
  · refine .inr ⟨goes, fun budget hb => execute_of_not_stops hm input hb fun m hle => ?_⟩
    exact goes m (Nat.lt_of_le_of_lt hle hb)

/-- **The budget only cuts off**: the programs that end have a threshold, all others exhaust every
budget, and a larger budget shows what a smaller one shows. -/
theorem budget_threshold : BudgetLaw image memory input where
  threshold_or := by
    rcases stops_or_exhausts hm input with ⟨N, hN, stops, goes⟩ | ⟨-, exhausts⟩
    · exact .inl ⟨N, _, threshold_of_stops hm input hN stops goes⟩
    · exact .inr exhausts
  not_both := by
    rintro ⟨⟨N, outcome, threshold⟩, exhausts⟩
    exact threshold.not_exhausts exhausts
  threshold_iff := by
    intro N outcome
    constructor
    · intro threshold
      rcases stops_or_exhausts hm input with ⟨N', hN', stops, goes⟩ | ⟨-, exhausts⟩
      · obtain ⟨rfl, rfl⟩ := threshold.unique (threshold_of_stops hm input hN' stops goes)
        exact ⟨hN', stops, goes, rfl⟩
      · exact absurd exhausts threshold.not_exhausts
    · rintro ⟨hN, stops, goes, rfl⟩
      exact threshold_of_stops hm input hN stops goes
  exhausts_iff := by
    rcases stops_or_exhausts hm input with ⟨N, hN, stops, goes⟩ | ⟨goes, exhausts⟩
    · have threshold := threshold_of_stops hm input hN stops goes
      exact iff_of_false threshold.not_exhausts fun goes => goes N hN stops
    · exact iff_of_true exhausts goes
  plays := by
    intro budget hb
    have hr := ofImage_eq_runAt hm input budget
    have hs : (State.ofMemory memory).ticks = 0 := rfl
    obtain ⟨n, ending, plays, within, -⟩ := exists_plays input hs hb
    have length : ((State.ofMemory memory).shown input n).length ≤ budget.toNat := by
      rw [State.length_shown]
      exact within
    exact ⟨_, _, ending, hr, plays, Nat.succ_le_succ length, execute_of_plays hr plays length⟩
  shown := by
    intro budget budget' r r' ts us e f hle hb hr hr' plays plays'
    obtain rfl := eq_ofMemory hm hr
    obtain rfl := eq_ofMemory hm hr'
    exact shown_of_budget_le rfl hle hb plays plays'

end Law

/-- A program of one instruction that does nothing, in a state of it. -/
def idling (pc : UInt16) (ticks : UInt64) : State :=
  { State.ofMemory (Image.memoryOf [0x0C, 0x00]) with pc := pc, ticks := ticks }

theorem exec_idling :
    (idling 0 0).exec #[] = (idling 2 0, .ok .running) ∧
      (idling 2 0).exec #[] = (idling 4 0, .ok .halted) :=
  have hsize : [0x0C, 0x00].length ≤ memorySize := by decide
  ⟨State.exec_of_memoryOf [0x0C, 0x00] (i := .nop) rfl hsize (by decide) rfl,
    State.exec_of_memoryOf [0x0C, 0x00] (i := .halt) rfl hsize (by decide) rfl⟩

/-- The threshold of an instruction that does nothing is two: the second one is a halt in the zeroed memory. -/
theorem budget_threshold_nop :
    Image.load (Image.ofPayload [0x0C, 0x00]) = .ok (Image.memoryOf [0x0C, 0x00]) ∧
      BudgetLaw (Image.ofPayload [0x0C, 0x00]) (Image.memoryOf [0x0C, 0x00]) #[] ∧
      Threshold (Image.ofPayload [0x0C, 0x00]) (Image.memoryOf [0x0C, 0x00]) #[] 2 (.ok (idling 4 2)) ∧
      execute (Image.ofPayload [0x0C, 0x00]) #[] 2 = .ok (idling 4 2) ∧
      execute (Image.ofPayload [0x0C, 0x00]) #[] 1 = .error (.fault (.ticksExhausted 1)) := by
  have hm : Image.load (Image.ofPayload [0x0C, 0x00]) = .ok (Image.memoryOf [0x0C, 0x00]) :=
    Image.load_eq_ok (by decide)
  have law := budget_threshold hm #[]
  obtain ⟨first, second⟩ := exec_idling
  have one : (idling 0 0).execTimes #[] 1 = idling 2 0 := by rw [State.execTimes, State.execTimes, first]
  have two : (idling 0 0).execTimes #[] 2 = idling 4 0 := by rw [State.execTimes, one, second]
  have halted : (idling 0 0).arrival #[] 2 = .ok .halted := by rw [State.arrival, one, second]
  have goes : ∀ m < 2, ¬(idling 0 0).Stops #[] m := by
    intro m hm
    rw [State.not_stops_iff]
    obtain rfl | rfl : m = 0 ∨ m = 1 := by omega
    · exact ⟨rfl, rfl⟩
    · rw [one, State.arrival, State.execTimes, first]
      exact ⟨rfl, rfl⟩
  have outcome : Except.ok (idling 4 2) = (idling 0 0).ending #[] 2 := by
    rw [State.ending_of_halted halted, two]
    rfl
  have threshold :=
    (law.threshold_iff 2 _).mpr ⟨by decide, State.stops_of_halted halted, goes, outcome⟩
  exact ⟨hm, law, threshold, threshold.enough 2 (by decide) (by decide), threshold.short 1 (by decide)⟩

end Run

end ByteMachine
