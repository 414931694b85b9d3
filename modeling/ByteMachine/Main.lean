import ByteMachine.Console.Assembler
import ByteMachine.Console.Emulator

/-!
# The program

Carries out the script of a command on the files of the system. The first argument names the command.
-/

namespace ByteMachine

open Console

/-- The error of a failed file operation. -/
def fileError (error : IO.Error) : FileError :=
  match error with
  | .noFileOrDirectory .. => .notFound
  | .inappropriateType _ 20 _ => .notDirectory
  | .inappropriateType .. => .isDirectory
  | error => .other (toString error)

/-- Carries out a script. -/
def runScript : Script → IO UInt8
  | .exit code => do
    if code == 2 then IO.eprintln "error: the arguments are not understood"
    return code
  | .print text next => do
    IO.print text
    runScript (next ())
  | .read path next => do
    let result ← (IO.FS.readBinFile path).toBaseIO
    runScript (next (result.mapError fileError))
  | .write path content next => do
    let result ← (IO.FS.writeBinFile path content).toBaseIO
    runScript (next (result.mapError fileError))

/-- The script of the command with the given name. -/
def scriptOf (command : String) (arguments : List String) : Script :=
  if command == Assembler.name then Assembler.script arguments
  else if command == Emulator.name then Emulator.script arguments
  else .exit 2

end ByteMachine

/-- Runs the command that the first argument names. -/
def main (arguments : List String) : IO UInt32 := do
  let code ← ByteMachine.runScript <|
    ByteMachine.scriptOf (arguments.headD "") arguments.tail
  return code.toUInt32
