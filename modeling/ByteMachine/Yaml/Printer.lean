import ByteMachine.Text.Numeral
import ByteMachine.Yaml.Character

/-!
# Writing YAML

Scalars, and the entries of blocks. A text is written plain where its reader would find the same text,
else between single quotes, and between double quotes with escapes only where it holds a character that
cannot be written as it is. Long lines are not folded.
-/

namespace ByteMachine.Yaml

/-- The quotes that a scalar is written with. -/
inductive Quotes where
  | none
  | single
  | double
  deriving DecidableEq, Repr

namespace Scalar

/-- The start of the text can be the start of a plain scalar. -/
def startsPlain : List Char → Bool
  | [] => true
  | '-' :: '-' :: '-' :: _ => false
  | '.' :: '.' :: '.' :: _ => false
  | c :: rest =>
    !isIndicator c && !((c == '-' || c == '?' || c == ':') && atBlank rest) && !(c == ' ')

/-- No colon stands before a blank or the end, no hash sign stands after a blank, and the last
character is no space. The first argument says whether the text follows a blank. -/
def continuesPlain (afterBlank : Bool) : List Char → Bool
  | [] => true
  | c :: rest =>
    !(c == ':' && atBlank rest) && !(c == '#' && afterBlank) && !(c == ' ' && rest.isEmpty) &&
      continuesPlain (isBlank c || isBreak c) rest

/-- A space stands beside a line break. -/
def spaceAtBreak : List Char → Bool
  | c :: d :: rest =>
    (c == ' ' && isBreak d) || (isBreak c && d == ' ') || spaceAtBreak (d :: rest)
  | _ => false

/-- The quotes that a text needs. -/
def quotes (cs : List Char) : Quotes :=
  if !cs.all isPrintable || spaceAtBreak cs then .double
  else if startsPlain cs && continuesPlain false cs && !cs.any isBreak then .none
  else .single

/-- A text between single quotes: a quote is written twice, and a line that follows a break starts with
the indentation. -/
def singleQuotedBody (indent : Nat) (afterBreak : Bool) : List Char → List Char
  | [] => if afterBreak then List.replicate indent ' ' else []
  | c :: rest =>
    if isBreak c then c :: singleQuotedBody indent true rest
    else
      (if afterBreak then List.replicate indent ' ' else []) ++ (if c == '\'' then [c, c] else [c]) ++
        singleQuotedBody indent false rest

/-- The letter of the escape of a character, for the characters that have one. -/
def escapeLetter? (c : Char) : Option Char :=
  [('\x00', '0'), ('\x07', 'a'), ('\x08', 'b'), ('\t', 't'), ('\n', 'n'), ('\x0b', 'v'),
    ('\x0c', 'f'), ('\r', 'r'), ('\x1b', 'e'), ('"', '"'), ('\\', '\\'), ('\u0085', 'N'),
    ('\u00a0', '_'), ('\u2028', 'L'), ('\u2029', 'P')].lookup c

/-- A character between double quotes. -/
def doubleQuotedChar (c : Char) : List Char :=
  if isPrintable c && !isBreak c && c != '"' && c != '\\' then [c]
  else
    match escapeLetter? c with
    | some letter => ['\\', letter]
    | none =>
      let padded (letter : Char) (width : Nat) : List Char :=
        '\\' :: letter :: (Text.numeral 16 c.toNat).leftpad width '0'
      if c.toNat ≤ 0xFF then padded 'x' 2
      else if c.toNat ≤ 0xFFFF then padded 'u' 4
      else padded 'U' 8

/-- A text as a scalar, whose further lines have the given indentation. -/
def write (indent : Nat) (s : String) : String :=
  let cs := s.toList
  match quotes cs with
  | .none => s
  | .single => "'" ++ String.ofList (singleQuotedBody indent false cs) ++ "'"
  | .double => "\"" ++ String.ofList (cs.flatMap doubleQuotedChar) ++ "\""

end Scalar

/-- A line that gives a key of a block a value. -/
def entry (indent : Nat) (key value : String) : String :=
  String.ofList (List.replicate indent ' ') ++ key ++ ": " ++ value ++ "\n"

/-- A key of the outermost block and a list of values, each on a line of its own. -/
def listEntry (key : String) (values : List String) : String :=
  if values.isEmpty then key ++ ": []\n"
  else key ++ ":\n" ++ String.join (values.map fun v => "- " ++ v ++ "\n")

/-- A truth value. -/
def truth (b : Bool) : String := if b then "true" else "false"

end ByteMachine.Yaml
