import ByteMachine.Text.Numeral
import ByteMachine.Text.Style

/-!
# Source errors

What can be wrong with a line of source text, and the texts that say so: the message on one line, and
the diagnostic that shows the line in its file.
-/

namespace ByteMachine

/-- What is wrong with a line. -/
inductive SourceError where
  /-- A mnemonic with another number of operands than it takes. -/
  | argumentCount (op : String) (expected : Nat) (args : List String)
  /-- A word that is no mnemonic, or an operand that is neither a number nor a label. -/
  | unexpectedToken (token : String)
  /-- An operand that is no register. -/
  | invalidRegister (token : String)
  /-- A number, or the address of a label, above the largest value. -/
  | outOfRange (token : String) (max : Nat)
  /-- A label that an earlier line defines. -/
  | redefinedLabel (name : String)
  deriving DecidableEq, Repr

namespace SourceError

/-- The error on one line. -/
def message : SourceError → String
  | .argumentCount op expected args =>
    "`" ++ op ++ "` expects " ++ Text.decimal expected ++ " argument(s), got [" ++
      String.intercalate ", " args ++ "]"
  | .unexpectedToken token => "Unexpected token: `" ++ token ++ "`"
  | .invalidRegister token => "Invalid register: `" ++ token ++ "`"
  | .outOfRange token max => "Value out of range: `" ++ token ++ "` (max 0x" ++ Text.hex max ++ ")"
  | .redefinedLabel name => "Re-defined label: `" ++ name ++ "`"

end SourceError

/-- An error and the line where it is. -/
structure LocatedError where
  /-- The index of the line, from zero. -/
  line : Nat
  /-- The line, without the blanks at its ends. -/
  text : String
  cause : SourceError
  deriving DecidableEq, Repr

namespace LocatedError

/-- The error on one line, after the number of the line, from one. -/
def message (e : LocatedError) : String :=
  "line " ++ Text.decimal (e.line + 1) ++ ": " ++ e.cause.message

/-- The error, the place in the file, and the line itself beside its number. -/
def diagnostic (e : LocatedError) (file : String) : String :=
  let bar := "      " ++ Text.styled [.blue] "|" ++ "\n"
  Text.errorHeading ++ ": " ++ e.cause.message ++ "\n" ++
    "     " ++ Text.styled [.blue] "-->" ++ " " ++
    Text.styled [.underline] (file ++ ":" ++ Text.decimal (e.line + 1)) ++ "\n" ++
    bar ++
    " " ++ Text.styled [.blue] (Text.decimalPadded 4 (e.line + 1) ++ " |") ++ " " ++ e.text ++ "\n" ++
    bar

end LocatedError

end ByteMachine
