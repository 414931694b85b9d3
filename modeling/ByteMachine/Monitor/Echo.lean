import ByteMachine.Machine.State
import ByteMachine.Text.Quoted
import ByteMachine.Text.Style

/-!
# Echo of the output

Shows the bytes that a program writes, each once and in order, by remembering how many have been shown.
In the plain form a byte stands for the character of its number; in the styled form each byte has a
line with its two digits and its quoted character.

Main statements: `unseen_fresh` (a new echo has seen nothing), `unseen_again` (nothing is shown twice).
-/

namespace ByteMachine

/-- An echo of the output. -/
structure Echo where
  /-- The styled form is used. -/
  styled : Bool
  /-- The number of bytes that have been shown. -/
  shown : Nat
  deriving DecidableEq, Repr

namespace Echo

/-- The echo before any output. -/
def fresh (styled : Bool) : Echo := ⟨styled, 0⟩

/-- The bytes of the output that have not been shown, after which all have been. -/
def unseen (e : Echo) (s : State) : Echo × Array UInt8 :=
  ({ e with shown := s.output.size }, s.output.extract e.shown s.output.size)

theorem unseen_fresh (styled : Bool) (s : State) : ((fresh styled).unseen s).2 = s.output := by
  simp [unseen, fresh]

theorem unseen_again (e : Echo) (s : State) : ((e.unseen s).1.unseen s).2 = #[] := by
  simp [unseen]

/-- A byte as it is shown. -/
def showByte (styled : Bool) (b : UInt8) : String :=
  let c := Char.ofNat b.toNat
  if styled then
    " > " ++ Text.styled [.red, .bold] (Text.hexPadded 2 b.toNat) ++ " " ++ Text.quoteChar c ++ "\n"
  else String.singleton c

/-- Shows the bytes that have not been shown. -/
def update (e : Echo) (s : State) : Echo × String :=
  let (e, bytes) := e.unseen s
  (e, String.join (bytes.toList.map (showByte e.styled)))

/-- Shows the rest of the output, with a line end after plain output. -/
def close (e : Echo) (s : State) : Echo × String :=
  let (e, text) := e.update s
  (e, if !e.styled && !s.output.isEmpty then text ++ "\n" else text)

end Echo

end ByteMachine
