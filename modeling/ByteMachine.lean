import ByteMachine.Main
import ByteMachine.Source.Item
import ByteMachine.Proofs.Source.Literal
import ByteMachine.Proofs.Source.Reading
import ByteMachine.Proofs.Traversal
import ByteMachine.Proofs.Source.Operand
import ByteMachine.Proofs.Source.Encoding
import ByteMachine.Proofs.Source.Layout
import ByteMachine.Proofs.Source.Placement
import ByteMachine.Proofs.Machine.Ticks
import ByteMachine.Proofs.Machine.Iteration
import ByteMachine.Proofs.Machine.Budget
import ByteMachine.Proofs.Instruction.RoundTrip
import ByteMachine.Proofs.Instruction.Readings
import ByteMachine.Proofs.Instruction.Canonical
import ByteMachine.Proofs.Text.Lines
import ByteMachine.Proofs.Source.Rendering
import ByteMachine.Proofs.Source.AddressLine
import ByteMachine.Proofs.Source.Replacement
import ByteMachine.Proofs.Source.Resolution
import ByteMachine.Proofs.Machine.Faults
import ByteMachine.Proofs.Machine.Bounds
import ByteMachine.Proofs.Machine.Frame
import ByteMachine.Proofs.Machine.Values
import ByteMachine.Proofs.Machine.Confinement
import ByteMachine.Proofs.Source.Decoding
import ByteMachine.Proofs.Source.Printing
import ByteMachine.Proofs.Source.Capacity
import ByteMachine.Proofs.Source.Entries
import ByteMachine.Proofs.Source.Attribution
import ByteMachine.Proofs.Machine.Calls
import ByteMachine.Proofs.Machine.UnreadInput
import ByteMachine.Proofs.Machine.HandOut
import ByteMachine.Proofs.Machine.FaultedRun
import ByteMachine.Proofs.Machine.Loading
import ByteMachine.Proofs.Console.Follow
import ByteMachine.Proofs.Monitor.Echo
import ByteMachine.Proofs.Console.Drivers
import ByteMachine.Proofs.Source.Alike
import ByteMachine.Proofs.Source.Correspondence
import ByteMachine.Proofs.Source.Diagnosis
import ByteMachine.Proofs.Source.Edits
import ByteMachine.Proofs.Source.Grammar
import ByteMachine.Proofs.Source.Relocation
import ByteMachine.Proofs.Machine.StraightLine
import ByteMachine.Proofs.Source.StraightLine
import ByteMachine.Proofs.Machine.LargestBudget
import ByteMachine.Proofs.Source.ListedCode
import ByteMachine.Proofs.Source.Rows
import ByteMachine.Proofs.Source.NormalForm
import ByteMachine.Proofs.Text.Columns
import ByteMachine.Proofs.Instruction.Disassembly
import ByteMachine.Proofs.Text.Numerals
import ByteMachine.Proofs.Source.Numbers
