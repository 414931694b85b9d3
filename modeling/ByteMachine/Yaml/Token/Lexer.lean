import ByteMachine.Yaml.Scalar.Block
import ByteMachine.Yaml.Scalar.Plain
import ByteMachine.Yaml.Scalar.Quoted
import ByteMachine.Yaml.Token

/-!
# The tokens of a text

A key is known as one when its colon comes, so the lexer keeps for the innermost flow, and for each one
around it, the place where a key may have started; the tokens that mark a key are inserted there. Such
a key stands on one line and is not longer than a limit. Blocks are opened and closed by the columns
where their lines start.

Main definition: `tokens?`; a form that is refused has no tokens. Main statement: `insert_count` (to insert
after all tokens is to add one).
-/

namespace ByteMachine.Yaml

/-- A place where a key may start. -/
structure KeyStart where
  /-- The number of tokens before it. -/
  position : Nat
  line : Nat
  column : Nat
  /-- The number of octets before it. -/
  index : Nat
  /-- Nothing but a key can stand there. -/
  required : Bool
  deriving DecidableEq, Repr

/-- The largest number of octets from the start of a key to its colon. -/
def keyMax : Nat := 1024

/-- No key can end at the place any more. -/
def KeyStart.isPast (k : KeyStart) (cur : Cursor) : Bool :=
  k.line < cur.line || k.index + keyMax < cur.index

/-- The start of a key, unless it is given up. One that is required cannot be. -/
def KeyStart.check? (cur : Cursor) : Option KeyStart → Option (Option KeyStart)
  | none => some none
  | some k => if !k.isPast cur then some (some k) else if k.required then none else some none

/-- A state of the lexer. -/
structure Lexer where
  cursor : Cursor
  /-- The tokens so far, the last one first. -/
  tokens : List Token
  /-- The number of tokens so far. -/
  count : Nat
  /-- The columns of the open blocks, the innermost first. -/
  columns : List Nat
  keyAllowed : Bool
  keyStart : Option KeyStart
  /-- The starts of keys around each open flow, the innermost first. -/
  outer : List (Option KeyStart)
  /-- The numbers of the anchors so far, by their names. -/
  anchors : List (String × Nat)

namespace Lexer

/-- The state at the start of a text. -/
def start (cs : List Char) : Lexer := ⟨⟨cs, 0, 0, 0⟩, [], 0, [], true, none, [], []⟩

/-- A flow is open. -/
def inFlow (s : Lexer) : Bool := !s.outer.isEmpty

/-- The least column of a line that belongs to the innermost block. -/
def least (s : Lexer) : Nat := (s.columns.head?.map (· + 1)).getD 0

/-- Adds a token. -/
def push (t : Token) (s : Lexer) : Lexer := { s with tokens := t :: s.tokens, count := s.count + 1 }

/-- Adds tokens after the first `position` ones. -/
def insert (position : Nat) (ts : List Token) (s : Lexer) : Lexer :=
  let later := s.count - position
  { s with
    tokens := s.tokens.take later ++ ts.reverse ++ s.tokens.drop later
    count := s.count + ts.length }

theorem insert_count (t : Token) (s : Lexer) : s.insert s.count [t] = s.push t := by
  simp [insert, push]

/-- Ends the `n` innermost blocks. -/
def close (n : Nat) (s : Lexer) : Lexer :=
  { s with
    tokens := List.replicate n .blockEnd ++ s.tokens
    count := s.count + n
    columns := s.columns.drop n }

/-- Ends the blocks of which no line can start at the column. -/
def closeTo (column : Nat) (s : Lexer) : Lexer :=
  if s.inFlow then s else s.close (s.columns.takeWhile (column < ·)).length

/-- Ends all blocks. -/
def closeAll (s : Lexer) : Lexer := if s.inFlow then s else s.close s.columns.length

/-- Starts a block at a column, unless a block is open there. Its token is added after the first
`position` ones. -/
def openBlock (position column : Nat) (t : Token) (s : Lexer) : Lexer :=
  if s.inFlow || column < s.least then s
  else { s.insert position [t] with columns := column :: s.columns }

/-- Gives up the start of a key. -/
def dropKey? (s : Lexer) : Option Lexer :=
  if s.keyStart.any (·.required) then none else some { s with keyStart := none }

/-- Keeps the place as the start of a key, if a key can start here. -/
def keepKey? (s : Lexer) : Option Lexer :=
  if s.keyAllowed then
    s.dropKey?.map fun s =>
      let required := !s.inFlow && s.columns.head? == some s.cursor.column
      { s with keyStart := some ⟨s.count, s.cursor.line, s.cursor.column, s.cursor.index, required⟩ }
  else some s

/-- Goes to the next token, gives up the starts of keys that are past, and ends blocks. -/
def settle? (s : Lexer) : Option Lexer := do
  let (cur, keyAllowed) := s.cursor.settle s.inFlow s.keyAllowed
  let keyStart ← KeyStart.check? cur s.keyStart
  let outer ← s.outer.mapM (KeyStart.check? cur)
  return { s with cursor := cur, keyAllowed, keyStart, outer }.closeTo cur.column

/-- Goes on by some characters of a line. -/
def advance (n : Nat) (s : Lexer) : Lexer := { s with cursor := s.cursor.skip n }

/-- Says whether a key can start after the token. -/
def allowKey (b : Bool) (s : Lexer) : Lexer := { s with keyAllowed := b }

/-! ### One token -/

/-- A directive. -/
def directive? (s : Lexer) : Option Lexer := do
  let s ← s.closeAll.dropKey?
  let (d, cur) ← Directive.read? (s.cursor.skip 1)
  return { s with cursor := cur }.push (.directive d) |>.allowKey false

/-- The mark of the start or the end of a document. -/
def marker? (t : Token) (s : Lexer) : Option Lexer :=
  s.closeAll.dropKey?.map fun s => s.push t |>.advance 3 |>.allowKey false

/-- The start of a flow. -/
def openFlow? (t : Token) (s : Lexer) : Option Lexer :=
  s.keepKey?.map fun s =>
    { s with outer := s.keyStart :: s.outer, keyStart := none }.push t |>.advance 1 |>.allowKey true

/-- The end of a flow. -/
def closeFlow? (t : Token) (s : Lexer) : Option Lexer :=
  s.dropKey?.map fun s =>
    { s with outer := s.outer.drop 1, keyStart := s.outer.head?.getD none }.push t
      |>.advance 1 |>.allowKey false

/-- The comma of a flow. -/
def comma? (s : Lexer) : Option Lexer :=
  s.dropKey?.map fun s => s.push .comma |>.advance 1 |>.allowKey true

/-- The dash of a block sequence. In a flow it is left to the grammar to refuse it. -/
def item? (s : Lexer) : Option Lexer :=
  if !s.inFlow && !s.keyAllowed then none
  else
    (s.openBlock s.count s.cursor.column .blockSequence).dropKey?.map fun s =>
      s.push .item |>.advance 1 |>.allowKey true

/-- The question mark before a key. -/
def key? (s : Lexer) : Option Lexer :=
  if !s.inFlow && !s.keyAllowed then none
  else
    (s.openBlock s.count s.cursor.column .blockMapping).dropKey?.map fun s =>
      s.push .key |>.advance 1 |>.allowKey (!s.inFlow)

/-- The colon before a value. Where a key may have started, it did. -/
def value? (s : Lexer) : Option Lexer :=
  match s.keyStart with
  | some k =>
    some ({ s with keyStart := none }.insert k.position [.key]
      |>.openBlock k.position k.column .blockMapping
      |>.push .value |>.advance 1 |>.allowKey false)
  | none =>
    if !s.inFlow && !s.keyAllowed then none
    else
      some (s.openBlock s.count s.cursor.column .blockMapping
        |>.push .value |>.advance 1 |>.allowKey (!s.inFlow))

/-- The name after the character of an anchor or a reference. -/
def name? (s : Lexer) : Option String :=
  let rest := s.cursor.rest.drop 1
  let name := rest.takeWhile isNameChar
  let after := rest.drop name.length
  if name.isEmpty || !(atBlank after || after.head?.any "?:,]\x7d%@`".toList.contains) then none
  else some (String.ofList name)

/-- A reference to an anchor, of which there must be one before. -/
def reference? (s : Lexer) : Option Lexer := do
  let s ← s.keepKey?
  let name ← s.name?
  let number ← s.anchors.lookup name
  return s.push (.reference number) |>.advance (name.length + 1) |>.allowKey false

/-- An anchor. Its number is that of the different names before it. -/
def anchor? (s : Lexer) : Option Lexer := do
  let s ← s.keepKey?
  let name ← s.name?
  let number := s.anchors.length
  let anchors := (name, number) :: s.anchors.filter (·.1 != name)
  return { s with anchors }.push (.anchor number) |>.advance (name.length + 1) |>.allowKey false

/-- A tag. A blank or a line break follows, or a comma in a flow. -/
def tag? (s : Lexer) : Option Lexer := do
  let s ← s.keepKey?
  let (t, width) ← Tag.afterMark? (s.cursor.rest.drop 1)
  let s := s.push (.tag t) |>.advance (width + 1) |>.allowKey false
  if atBlank s.cursor.rest || (s.inFlow && s.cursor.rest.head? == some ',') then return s else none

/-- A block scalar. -/
def block? (style : ScalarStyle) (s : Lexer) : Option Lexer := do
  let s ← s.dropKey?
  let (text, cur) ← Scalar.block? (style == .literal) s.columns (s.cursor.skip 1)
  return { s with cursor := cur }.push (.scalar style text) |>.allowKey true

/-- A quoted scalar. -/
def quoted? (item? : List Char → Option Scalar.QuotedItem) (s : Lexer) : Option Lexer := do
  let s ← s.keepKey?
  let (text, cur) ← Scalar.quoted? item? (s.cursor.skip 1)
  return { s with cursor := cur }.push (.scalar .quoted text) |>.allowKey false

/-- A plain scalar. A key can start after it on another line. -/
def plain? (s : Lexer) : Option Lexer := do
  let s ← s.keepKey?
  let (text, cur, broken) ← Scalar.plain? s.inFlow s.least s.cursor
  return { s with cursor := cur }.push (.scalar .plain text) |>.allowKey broken

/-- The state after the token that starts here with a character. -/
def tokenAt? (s : Lexer) (c : Char) (rest : List Char) : Option Lexer :=
  if c == '%' && s.cursor.column == 0 then s.directive?
  else if s.cursor.atMarker '-' then s.marker? .documentStart
  else if s.cursor.atMarker '.' then s.marker? .documentEnd
  else if c == '[' then s.openFlow? .flowSequence
  else if c == '\x7b' then s.openFlow? .flowMapping
  else if c == ']' then s.closeFlow? .flowSequenceEnd
  else if c == '\x7d' then s.closeFlow? .flowMappingEnd
  else if c == ',' then s.comma?
  else if c == '-' && atBlank rest then s.item?
  else if c == '?' && (s.inFlow || atBlank rest) then s.key?
  else if c == ':' && (s.inFlow || atBlank rest) then s.value?
  else if c == '*' then s.reference?
  else if c == '&' then s.anchor?
  else if c == '!' then s.tag?
  else if c == '|' && !s.inFlow then s.block? .literal
  else if c == '>' && !s.inFlow then s.block? .folded
  else if c == '\'' then s.quoted? Scalar.singleQuoted?
  else if c == '"' then s.quoted? Scalar.doubleQuoted?
  else if Scalar.plainStartsAt s.inFlow (c :: rest) then s.plain?
  else none

/-! ### All tokens -/

/-- The tokens of the text, the last one first. A token takes a character at least, so that a count
above the number of characters is not reached. -/
def run? : Nat → Lexer → Option (List Token)
  | 0, _ => none
  | fuel + 1, s => do
    let s ← s.settle?
    match s.cursor.rest with
    | [] => s.closeAll.dropKey?.map (·.tokens)
    | c :: rest => run? fuel (← s.tokenAt? c rest)

end Lexer

/-- The tokens of a text. -/
def tokens? (text : String) : Option (List Token) :=
  let cs := text.toList
  if cs.all isReadable then
    let cs := unifyBreaks cs
    ((Lexer.start cs).run? (cs.length + 1)).map List.reverse
  else none

end ByteMachine.Yaml
