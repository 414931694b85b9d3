import ByteMachine.Machine.Run

/-!
# Outcomes of runs

A run goes on cycle by cycle until the program ends or a fault ends it. Each cycle costs a tick, so a
budget that the ticks can exceed bounds the number of cycles. The largest budget of sixty-four bits
cannot be exceeded: a run that is not over after 2^64 cycles on it is given up.

Main statements: `ending?_add` (more calls keep an ending), `drain_eq` (what `drain` counts is what
`results` lists).
-/

namespace ByteMachine

namespace Run

/-- How the run ends within some calls of `step`: the final state, or the fault. -/
def ending? (r : Run) : Nat → Option (Except Fault State)
  | 0 => none
  | n + 1 =>
    match r.step with
    | (_, .error fault) => some (.error fault)
    | (_, .ok ⟨state, true⟩) => some (.ok state)
    | (r, .ok ⟨_, false⟩) => r.ending? n

/-- More calls keep an ending. -/
theorem ending?_add {r : Run} {n : Nat} {ending : Except Fault State} (h : r.ending? n = some ending)
    (k : Nat) : r.ending? (n + k) = some ending := by
  induction n generalizing r with
  | zero => simp [ending?] at h
  | succ n ih =>
    rw [Nat.add_right_comm]
    unfold ending? at h ⊢
    split at h <;> simp_all

/-- The states that the run shows within some calls of `step`, each before its instruction is carried
out. -/
def observed (r : Run) : Nat → List State
  | 0 => []
  | n + 1 =>
    match r.step with
    | (_, .error _) | (_, .ok ⟨_, true⟩) => []
    | (r, .ok ⟨state, false⟩) => state :: r.observed n

/-- The results that the run hands out within some calls of `next`. -/
def results (r : Run) : Nat → List (Except Fault Snapshot)
  | 0 => []
  | n + 1 =>
    match r.next with
    | (_, none) => []
    | (r, some result) => result :: r.results n

/-- The run at its end, the number of results that it hands out until then, on top of `count`, and the
last of them, if the end comes within some calls of `next`. -/
def drain (r : Run) (count : Nat) : Nat → Run × Nat × Option (Except Fault Snapshot)
  | 0 => (r, count, none)
  | n + 1 =>
    match r.next with
    | (r, none) => (r, count, none)
    | (r, some result) => if r.isOver then (r, count + 1, some result) else r.drain (count + 1) n

theorem results_of_isOver {r : Run} (h : r.isOver = true) (n : Nat) : r.results n = [] := by
  cases n with
  | zero => rfl
  | succ n => simp [results, next_of_isOver h]

/-- What `drain` counts is what `results` lists. -/
theorem drain_eq {r : Run} {count n : Nat} {last : Except Fault Snapshot}
    (h : (r.drain count n).2.2 = some last) :
    (r.drain count n).2.1 = count + (r.results n).length ∧ (r.results n).getLast? = some last := by
  induction n generalizing r count with
  | zero => simp [drain] at h
  | succ n ih =>
    unfold drain at h ⊢
    unfold results
    cases hn : r.next with
    | mk next result =>
      cases result with
      | none => simp [hn] at h
      | some result =>
        simp only [hn] at h ⊢
        by_cases ho : next.isOver = true
        · simp only [ho, if_true, Option.some.injEq] at h
          simp [ho, h, results_of_isOver ho n]
        · simp only [ho, Bool.false_eq_true, if_false] at h ⊢
          obtain ⟨hc, hl⟩ := ih h
          refine ⟨?_, ?_⟩
          · rw [hc, List.length_cons]
            omega
          · rw [List.getLast?_cons, hl, Option.getD_some]

/-- The number of calls after which a run on the budget is over. -/
def callLimit (r : Run) : Nat := r.budget.toNat + 1

end Run

/-- Why an image has no final state. -/
inductive ExecuteError where
  | load (error : Image.LoadError)
  | fault (fault : Fault)
  /-- The run was not over after as many cycles as the largest budget has. -/
  | unending
  deriving DecidableEq, Repr

/-- The final state of an image's program on an input, within a budget of cycles. -/
def execute (image : List UInt8) (input : Array UInt8) (budget : UInt64) :
    Except ExecuteError State :=
  match Run.ofImage image input budget with
  | .error error => .error (.load error)
  | .ok r =>
    match r.ending? r.callLimit with
    | some (.ok state) => .ok state
    | some (.error fault) => .error (.fault fault)
    | none => .error .unending

end ByteMachine
