import ByteMachine.Machine.State
import ByteMachine.Monitor.Inspector
import ByteMachine.Source.SourceMap
import ByteMachine.Yaml.Printer
import ByteMachine.Yaml.Tree

/-!
# Documents

The texts that are kept in files: the source map of a program and the final state of a run, which are
written, and source maps and watch lists, which are read. A field that is not known is ignored, a field
that occurs twice is refused, and of equal keys of a map the last counts.
-/

namespace ByteMachine

open Yaml

namespace Source.SourceMap

/-- The largest line number or address in a document. -/
def numberMax : Nat := UInt64.size - 1

/-- The map as a document. -/
def toYaml (m : SourceMap) : String :=
  if m.isEmpty then "\x7b\x7d\n"
  else
    String.join (m.map fun (key, p) =>
      Text.decimal key ++ ":\n" ++ Yaml.entry 2 "line" (Text.decimal p.line) ++
        Yaml.entry 2 "address" (Text.decimal p.address) ++ Yaml.entry 2 "raw" (Scalar.write 4 p.text))

/-- The line of a node. -/
def lineOfNode (t : Tree) (n : Node) : Reading PlacedLine := do
  let fields ← t.fields n
  let line ← t.natural numberMax (← ← field? fields "line")
  let address ← t.natural numberMax (← ← field? fields "address")
  let text ← t.text (← ← field? fields "raw")
  return ⟨line, address, text⟩

/-- The map of a document. -/
def ofYaml? (text : String) : Option SourceMap := do
  let pairs ← (← Tree.ofText? text).read? fun t => do
    (← t.entries t.root).mapM fun (key, value) =>
      return (← t.natural numberMax key, ← lineOfNode t value)
  return ofPairs pairs

end Source.SourceMap

/-- The watch of a node; a field that is missing asks for nothing. -/
def Watch.ofNode (t : Tree) (n : Node) : Reading Watch := do
  let fields ← t.fields n
  let stack ← match ← field? fields "stack" with
    | none => pure false
    | some value => t.truth value
  let memory ← match ← field? fields "memory" with
    | none => pure []
    | some value => do
      (← t.items value).mapM fun item => return UInt16.ofNat (← t.natural 0xFFFF item)
  return ⟨stack, memory⟩

/-- The watch list of a document. -/
def WatchList.ofYaml? (text : String) : Option WatchList := do
  let pairs ← (← Tree.ofText? text).read? fun t => do
    (← t.entries t.root).mapM fun (key, value) =>
      return (UInt16.ofNat (← t.natural 0xFFFF key), ← Watch.ofNode t value)
  return ofPairs pairs

/-- The state as a document. -/
def State.toYaml (s : State) : String :=
  let bytes (bs : List UInt8) : List String := bs.map fun b => Text.decimal b.toNat
  Yaml.entry 0 "pc" (Text.decimal s.pc.toNat) ++
    Yaml.entry 0 "flag" (truth s.flag) ++
    listEntry "regs" (bytes s.registers.toList) ++
    listEntry "memory" (bytes s.memory.toList) ++
    listEntry "output" (bytes s.output.toList) ++
    Yaml.entry 0 "input_ptr" (Text.decimal s.cursor) ++
    listEntry "backtrace" (s.calls.toList.map fun a => Text.decimal a.toNat) ++
    Yaml.entry 0 "tick" (Text.decimal s.ticks.toNat)

end ByteMachine
