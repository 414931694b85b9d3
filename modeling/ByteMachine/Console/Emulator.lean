import ByteMachine.Console.Failure
import ByteMachine.Console.WatchFile
import ByteMachine.Machine.Outcome
import ByteMachine.Monitor.Basic
import ByteMachine.Source.Program

/-!
# The emulator command

Runs an image, or a source text that is assembled first, and prints what the monitors answer: tables,
the echo of the output, and on request a trace. The final state can be written to a file, also after a
fault.
-/

namespace ByteMachine.Console.Emulator

open Source

/-- The name of the command. -/
def name : String := "s8emu"

/-- The version of the command. -/
def version : String := "0.1.0"

/-- The switches of the command. -/
def switches : List Switch :=
  [⟨"tmax", some 't', .number⟩, ⟨"input", some 'i', .text⟩, ⟨"input-file", some 'f', .text⟩,
    ⟨"dump-cfg", some 'd', .text⟩, ⟨"dump-all", some 'a', .flag⟩, ⟨"pdb", some 'p', .text⟩,
    ⟨"state-out", some 's', .text⟩, ⟨"trace", none, .flag⟩]

/-- What the command is asked to do. -/
structure Request where
  program : String
  budget : UInt64
  input : Option String
  inputFile : Option String
  watchFile : Option String
  always : Bool
  sourceMap : Option String
  stateFile : Option String
  trace : Bool
  deriving DecidableEq, Repr

/-- The request of a command line; the input comes from the command line or from a file, not both. -/
def Request.ofCommandLine (l : CommandLine) : Except Stop Request :=
  if (l.value? "input").isSome && (l.value? "input-file").isSome then .error .refused
  else .ok {
    program := l.positional.getD "main.s8.bin"
    budget := ((l.value? "tmax").bind word64?).getD defaultBudget
    input := l.value? "input"
    inputFile := l.value? "input-file"
    watchFile := l.value? "dump-cfg"
    always := l.has "dump-all"
    sourceMap := l.value? "pdb"
    stateFile := l.value? "state-out"
    trace := l.has "trace" }

/-- The heading of the output: the name of the program in a box. -/
def heading (program : String) : List String :=
  let edge := "+" ++ String.ofList (List.replicate 47 '-') ++ "+"
  ["SLEDE8 Emulator", edge, "| " ++ Text.alignLeft 45 program ++ " |", edge]

/-- The line between the output of a run and its end. -/
def closingRule : String := String.ofList (List.replicate 49 '=')

/-- Reads a source map. -/
def readSourceMap (path : String) (next : SourceMap → Script) : Script :=
  .readText path fun
    | .error error => .failFile "read" path error
    | .ok text =>
      match SourceMap.ofYaml? text with
      | some m => next m
      | none => .failFile "read" path (.other "not a source map")

/-- Reads the image and the source map. A program whose name ends in `.s8` is a source text, which has a
source map of its own. -/
def load (r : Request) (next : List UInt8 → Option SourceMap → Script) : Script :=
  if r.program.endsWith ".s8" then
    .readText r.program fun
      | .error error => .failFile "open file" r.program error
      | .ok source =>
        match assemble source with
        | .error error => .print (error.diagnostic r.program) fun _ => .exit 1
        | .ok p => next p.image (some p.sourceMap)
  else
    .read r.program fun
      | .error error => .failFile "open file" r.program error
      | .ok image =>
        match r.sourceMap with
        | none => next image.toList none
        | some path => readSourceMap path fun m => next image.toList (some m)

/-- Reads the input. -/
def readInput (r : Request) (next : Array UInt8 → Script) : Script :=
  match r.input, r.inputFile with
  | some text, _ => next text.toUTF8.data
  | none, some path => .read path fun
    | .error error => .failFile "open file" path error
    | .ok bytes => next bytes.data
  | none, none => next #[]

/-- Reads the request for tables. -/
def readInspector (r : Request) (next : Inspector → Script) : Script :=
  match r.watchFile with
  | none => next (.withoutFile r.always)
  | some path => .read path fun content =>
    match Inspector.ofFile path content r.always with
    | .error error => .fail error.message
    | .ok inspector => next inspector

/-- The monitors of a run. With a trace, the output is echoed byte by byte in lines of its own. -/
def monitors (r : Request) (inspector : Inspector) (sourceMap : Option SourceMap) : List Monitor :=
  [.inspector inspector, .echo (.fresh r.trace)] ++ if r.trace then [.trace ⟨sourceMap⟩] else []

/-- Takes what a run hands out, within some calls of `next`, and prints what the observers answer to each
cycle. A fault is kept, and the loop goes on; it is left when the program ends or nothing is handed out. -/
def follow {α : Type} [Observer α] (run : Run) (observers : List α) (fault : Option Fault)
    (next : Run → List α → Option Fault → Script) : Nat → Script
  | 0 => next run observers fault
  | n + 1 =>
    match run.next with
    | (run, none) => next run observers fault
    | (run, some (.ok ⟨_, true⟩)) => next run observers fault
    | (run, some (.ok ⟨state, false⟩)) =>
      let (observers, text) := Observer.observeAll observers (.ofState state)
      .print text fun _ => follow run observers fault next n
    | (run, some (.error fault)) => follow run observers (some fault) next n

/-- The end of the command, with the fault of the run if there was one. -/
def close : Option Fault → Script
  | none => .exit 0
  | some fault => .fail fault.message

/-- Prints the end of a run and writes its final state. -/
def finish {α : Type} [Observer α] (r : Request) (run : Run) (observers : List α)
    (fault : Option Fault) : Script :=
  .print (Observer.finishAll observers run.state).2 fun _ =>
  .printLines [closingRule] <|
  match r.stateFile with
  | none => close fault
  | some path => .write path run.state.toYaml.toUTF8 fun
    | .error error => .failFile "write file" path error
    | .ok () => close fault

/-- Carries out a request. -/
def perform (r : Request) : Script :=
  .printLines (heading r.program) <|
  load r fun image sourceMap =>
  readInput r fun input =>
  match Run.ofImage image input r.budget with
  | .error error => .fail error.message
  | .ok run =>
    .printLines ["[INIT]"] <|
    readInspector r fun inspector =>
    let (observers, text) := Observer.startAll (monitors r inspector sourceMap) run.state
    .print text fun _ =>
    -- a fault takes one call more, which hands out nothing
    follow run observers none (finish r) (run.callLimit + 1)

/-- The command with its arguments. -/
def script (arguments : List String) : Script :=
  match (CommandLine.ofArguments switches arguments).bind Request.ofCommandLine with
  | .error reason => .stop name version reason
  | .ok r => perform r

end ByteMachine.Console.Emulator
