import ByteMachine.Instruction.Codec
import ByteMachine.Source.Operand
import ByteMachine.Source.Statement

/-!
# Encoding

The bytes that a line of code stands for. A data line gives the bytes of its arguments. In any other
line the word that is no mnemonic is reported first, then a wrong number of operands, then the leftmost
operand that is not of its form.

Main statements: `encode_data`, `encode_of_mnemonic`, `encode_of_unknown`.
-/

namespace ByteMachine.Source

/-- The instruction of a mnemonic and its operands. -/
def instruction (labels : Labels) (m : Mnemonic) (args : List String) :
    Except SourceError Instruction := do
  match m, args with
  | .halt, [] => .ok .halt
  | .set, [target, source] =>
    let target ← register target
    match ← number source 0xFF with
    | some n => .ok (.setImmediate target (UInt8.ofNat n))
    | none => .ok (.setRegister target (← register source))
  | .locate, [a] => .ok (.locate (← address a labels))
  | .load, [r] => .ok (.load (← register r))
  | .store, [r] => .ok (.store (← register r))
  | .arithmetic op, [left, right] => .ok (.arithmetic op (← register left) (← register right))
  | .read, [r] => .ok (.read (← register r))
  | .write, [r] => .ok (.write (← register r))
  | .compare relation, [left, right] =>
    .ok (.compare relation (← register left) (← register right))
  | .jump, [a] => .ok (.jump (← address a labels))
  | .jumpIf, [a] => .ok (.jumpIf (← address a labels))
  | .call, [a] => .ok (.call (← address a labels))
  | .ret, [] => .ok .ret
  | .nop, [] => .ok .nop
  | m, args => .error (.argumentCount m.name m.arity args)

/-- The bytes of a line of code. -/
def encode (labels : Labels) (t : Statement) : Except SourceError (List UInt8) :=
  if t.op.toList = dataDirective then t.args.mapM byte
  else
    match Mnemonic.ofName? t.op with
    | none => .error (.unexpectedToken t.op)
    | some m => (instruction labels m t.args).map Instruction.toBytes

theorem encode_data (labels : Labels) (args : List String) :
    encode labels ⟨".DATA", args⟩ = args.mapM byte := by
  simp [encode, dataDirective]

theorem encode_of_unknown {labels : Labels} {t : Statement} (hd : t.op.toList ≠ dataDirective)
    (h : Mnemonic.ofName? t.op = none) : encode labels t = .error (.unexpectedToken t.op) := by
  simp [encode, hd, h]

theorem encode_of_mnemonic {labels : Labels} {t : Statement} {m : Mnemonic}
    (hd : t.op.toList ≠ dataDirective) (h : Mnemonic.ofName? t.op = some m) :
    encode labels t = (instruction labels m t.args).map Instruction.toBytes := by
  simp [encode, hd, h]

end ByteMachine.Source
