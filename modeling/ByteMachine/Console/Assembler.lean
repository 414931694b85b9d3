import ByteMachine.Console.Failure
import ByteMachine.Source.Listing
import ByteMachine.Yaml.Document

/-!
# The assembler command

Reads a source file, assembles it, and writes the image and, on request, the source map. A listing can be
printed at the end. Nothing is written if the source does not assemble.
-/

namespace ByteMachine.Console.Assembler

open Source

/-- The name of the command. -/
def name : String := "s8asm"

/-- The version of the command. -/
def version : String := "0.1.0"

/-- The switches of the command. -/
def switches : List Switch :=
  [⟨"output", some 'o', .text⟩, ⟨"dump", some 'd', .flag⟩, ⟨"pdb", some 'p', .text⟩]

/-- What the command is asked to do. -/
structure Request where
  input : String
  output : String
  listing : Bool
  sourceMap : Option String
  deriving DecidableEq, Repr

/-- The request of a command line. -/
def Request.ofCommandLine (l : CommandLine) : Request where
  input := l.positional.getD "main.s8"
  output := (l.value? "output").getD "main.s8.bin"
  listing := l.has "dump"
  sourceMap := l.value? "pdb"

/-- The counts that are printed for a program. -/
def summary (p : Program) : String :=
  "  " ++ Text.decimal p.labels.length ++ " labels, " ++ Text.decimal p.sourceMap.length ++ " lines, " ++
    Text.decimal p.image.length ++ " bytes"

/-- Announces a file and writes it, and goes on if that succeeds. -/
def emit (path : String) (content : ByteArray) (next : Script) : Script :=
  .print ("  > " ++ path ++ "\n") fun _ => .write path content fun
    | .error error => .failFile "write file" path error
    | .ok () => next

/-- The end of the command, with the listing if it is asked for. -/
def close (r : Request) (source : String) (p : Program) : Script :=
  .printLines (if r.listing then Source.listing r.input source p else []) (.exit 0)

/-- Carries out a request. -/
def perform (r : Request) : Script :=
  .printLines ["SLEDE8 Assembler", "1. Read File", "  < " ++ r.input] <|
  .readText r.input fun
    | .error error => .failFile "open file" r.input error
    | .ok source =>
      .printLines ["2. Resolve Labels & Generate Binary"] <|
      match assemble source with
      | .error error => .print (error.diagnostic r.input) fun _ => .exit 1
      | .ok p =>
        .printLines [summary p] <|
        emit r.output ⟨p.image.toArray⟩ <|
        match r.sourceMap with
        | none => close r source p
        | some path => emit path p.sourceMap.toYaml.toUTF8 (close r source p)

/-- The command with its arguments. -/
def script (arguments : List String) : Script :=
  match CommandLine.ofArguments switches arguments with
  | .error reason => .stop name version reason
  | .ok l => perform (.ofCommandLine l)

end ByteMachine.Console.Assembler
