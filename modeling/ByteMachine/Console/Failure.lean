import ByteMachine.Console.Arguments
import ByteMachine.Console.Script
import ByteMachine.Text.Style

/-!
# Failures of commands

The ways in which a command ends before its work is done, with their exit codes: 0 for the answer to a
version switch, 1 for a failure, which is announced, and 2 for a command line that is refused.
-/

namespace ByteMachine.Console.Script

open Text

/-- Announces a failure. -/
def fail (message : String) : Script :=
  .print (errorHeading ++ ": " ++ message ++ "\n") fun _ => .exit 1

/-- Announces a failure with a file. -/
def failFile (action name : String) (error : FileError) : Script :=
  fail ("Failed to " ++ action ++ " " ++ styled [.underline] name ++ ": " ++ error.message)

/-- Ends a command whose command line is not followed. -/
def stop (name version : String) : Stop → Script
  | .version => .print (name ++ " " ++ version ++ "\n") fun _ => .exit 0
  | .refused => .exit 2

end ByteMachine.Console.Script
