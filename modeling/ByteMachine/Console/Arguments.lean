import ByteMachine.Text.Numeral

/-!
# Command-line arguments

A command line is scanned from the left for switches with two hyphens and a name, switches with one
hyphen and a letter, their values, and the one argument that stands by itself. Letters may share a hyphen,
and a value may be joined to its switch. After `--` no argument is a switch. The first thing that is
wrong refuses the whole; a version switch before it answers the version.

Main statement: `scan_positional`.
-/

namespace ByteMachine.Console

/-- What a switch takes. -/
inductive SwitchKind where
  | flag
  | text
  /-- A number below 2^64. -/
  | number
  /-- Nothing: it asks for the version of the program. -/
  | version
  deriving DecidableEq, Repr

/-- A switch of a command line. -/
structure Switch where
  name : String
  letter : Option Char
  kind : SwitchKind
  deriving DecidableEq, Repr

/-- The switch that every command has. -/
def versionSwitch : Switch := ⟨"version", some 'V', .version⟩

/-- A number below 2^64 in base ten, with an optional plus sign. -/
def word64? (s : String) : Option UInt64 :=
  let digits := match s.toList with
    | '+' :: cs => cs
    | cs => cs
  (Text.read? 10 digits).bind fun n => if n < UInt64.size then some (UInt64.ofNat n) else none

/-- A part of a command line. -/
inductive Part where
  | flag (name : String)
  | value (name text : String)
  | positional (text : String)
  | version
  | malformed
  deriving DecidableEq, Repr

/-- The part that a switch and its value make. -/
def Switch.withValue (s : Switch) (text : String) : Part :=
  match s.kind with
  | .text => .value s.name text
  | .number => if (word64? text).isSome then .value s.name text else .malformed
  | .flag | .version => .malformed

/-- What the next argument can be. -/
inductive Expecting where
  | anything
  | valueOf (s : Switch)
  | positional

/-- The parts of letters that share a hyphen, and what comes after them. -/
def scanLetters (switches : List Switch) : List Char → List Part × Expecting
  | [] => ([], .anything)
  | c :: rest =>
    match switches.find? (·.letter == some c) with
    | none => ([.malformed], .anything)
    | some s =>
      match s.kind with
      | .flag =>
        let (parts, next) := scanLetters switches rest
        (.flag s.name :: parts, next)
      | .version => ([.version], .anything)
      | .text | .number =>
        match rest with
        | [] => ([], .valueOf s)
        | '=' :: text => ([s.withValue (String.ofList text)], .anything)
        | text => ([s.withValue (String.ofList text)], .anything)

/-- The parts of a switch with a name, and what comes after it. -/
def scanName (switches : List Switch) (body : List Char) : List Part × Expecting :=
  let name := String.ofList (body.takeWhile (· != '='))
  let value? := (body.dropWhile (· != '=')).tail?
  match switches.find? (·.name == name) with
  | none => ([.malformed], .anything)
  | some s =>
    match s.kind, value? with
    | .flag, none => ([.flag s.name], .anything)
    | .version, none => ([.version], .anything)
    | .text, none | .number, none => ([], .valueOf s)
    | _, some text => ([s.withValue (String.ofList text)], .anything)

/-- The parts of an argument that may be a switch, and what comes after it. -/
def scanArgument (switches : List Switch) (argument : String) : List Part × Expecting :=
  match argument.toList with
  | ['-', '-'] => ([], .positional)
  | '-' :: '-' :: body => scanName switches body
  | '-' :: c :: rest => scanLetters switches (c :: rest)
  | _ => ([.positional argument], .anything)

/-- The argument has the form of a switch. -/
def hasSwitchForm (argument : String) : Bool :=
  match argument.toList with
  | '-' :: _ :: _ => true
  | _ => false

/-- The parts of a command line. -/
def scan (switches : List Switch) : Expecting → List String → List Part
  | .valueOf _, [] => [.malformed]
  | .anything, [] | .positional, [] => []
  | .positional, argument :: rest => .positional argument :: scan switches .positional rest
  | .valueOf s, argument :: rest =>
    if hasSwitchForm argument then [.malformed]
    else s.withValue argument :: scan switches .anything rest
  | .anything, argument :: rest =>
    let (parts, next) := scanArgument switches argument
    parts ++ scan switches next rest

/-- After two hyphens every argument stands by itself. -/
theorem scan_positional (switches : List Switch) (arguments : List String) :
    scan switches .positional arguments = arguments.map .positional := by
  induction arguments with
  | nil => rfl
  | cons a rest ih => simp [scan, ih]

/-- Why a command line is not followed. -/
inductive Stop where
  | version
  | refused
  deriving DecidableEq, Repr

/-- A command line: no flag, no value of a switch and no argument by itself occurs twice. -/
structure CommandLine where
  flags : List String
  values : List (String × String)
  positional : Option String
  deriving DecidableEq, Repr

namespace CommandLine

/-- The command line without arguments. -/
def empty : CommandLine := ⟨[], [], none⟩

/-- The command line with one more part. -/
def add (l : CommandLine) : Part → Except Stop CommandLine
  | .flag name => if l.flags.contains name then .error .refused else .ok { l with flags := name :: l.flags }
  | .value name text =>
    if (l.values.lookup name).isSome then .error .refused
    else .ok { l with values := (name, text) :: l.values }
  | .positional text =>
    if l.positional.isSome then .error .refused else .ok { l with positional := some text }
  | .version => .error .version
  | .malformed => .error .refused

/-- The command line of some arguments. -/
def ofArguments (switches : List Switch) (arguments : List String) : Except Stop CommandLine :=
  (scan (versionSwitch :: switches) .anything arguments).foldlM add empty

/-- The value of a switch. -/
def value? (l : CommandLine) (name : String) : Option String := l.values.lookup name

/-- The flag is on the command line. -/
def has (l : CommandLine) (name : String) : Bool := l.flags.contains name

end CommandLine

end ByteMachine.Console
