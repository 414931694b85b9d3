import ByteMachine.Monitor.Echo
import ByteMachine.Monitor.Inspector
import ByteMachine.Monitor.Observer
import ByteMachine.Monitor.Trace

/-!
# Monitors

The observers that the emulator has: the tables, the echo of the output, and the trace. None of them
looks at the state before the run.
-/

namespace ByteMachine

/-- An observer of the emulator. -/
inductive Monitor where
  | inspector (inspector : Inspector)
  | echo (echo : Echo)
  | trace (trace : Trace)
  deriving DecidableEq, Repr

namespace Monitor

/-- The text before a run. -/
def start : Monitor → String
  | .inspector i => i.banner
  | .echo _ | .trace _ => ""

/-- The text of a cycle: its tick, its address, its word and the state before it. -/
def observe (m : Monitor) (tick : UInt64) (address word : UInt16) (s : State) : Monitor × String :=
  match m with
  | .inspector i => (m, i.tables address s)
  | .echo e =>
    let (e, text) := e.update s
    (.echo e, text)
  | .trace t => (m, t.line tick address word ++ "\n")

/-- The text after a run. -/
def finish (m : Monitor) (s : State) : Monitor × String :=
  match m with
  | .inspector _ => (m, "")
  | .echo e =>
    let (e, text) := e.close s
    (.echo e, text)
  | .trace _ => (m, Trace.closing s)

end Monitor

instance : Observer Monitor where
  start m _ := (m, m.start)
  observe m n := m.observe n.tick n.address n.word n.state
  finish := Monitor.finish

end ByteMachine
