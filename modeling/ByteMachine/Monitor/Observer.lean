import ByteMachine.Machine.State

/-!
# Observers

An observer follows a run and answers text: once before the run, once in each cycle, before its
instruction is carried out, and once after the run. It may remember what it has been told, so each answer
comes with the observer from then on. What it is told of a cycle is a `Notice`. Several observers answer
one after another.
-/

namespace ByteMachine

/-- What is told of a cycle before its instruction is carried out. -/
structure Notice where
  tick : UInt64
  address : UInt16
  word : UInt16
  /-- The state in which the instruction is carried out. -/
  state : State
  deriving DecidableEq

/-- What is told of a state that is shown. -/
def Notice.ofState (s : State) : Notice := ⟨s.ticks, s.pc, s.fetch, s⟩

/-- What can follow a run. -/
class Observer (α : Type) where
  /-- The answer before a run, which begins in the state. -/
  start : α → State → α × String
  /-- The answer to a cycle. -/
  observe : α → Notice → α × String
  /-- The answer after a run, which has ended in the state. -/
  finish : α → State → α × String

namespace Observer

section
variable {α : Type}

/-- The answers of several observers to one question. -/
def askAll (ask : α → α × String) (observers : List α) : List α × String :=
  let answers := observers.map ask
  (answers.map Prod.fst, String.join (answers.map Prod.snd))

variable [Observer α]

/-- The answers before a run. -/
def startAll (observers : List α) (s : State) : List α × String := askAll (start · s) observers

/-- The answers to a cycle. -/
def observeAll (observers : List α) (n : Notice) : List α × String := askAll (observe · n) observers

/-- The answers after a run. -/
def finishAll (observers : List α) (s : State) : List α × String := askAll (finish · s) observers

end

end Observer

end ByteMachine
