import ByteMachine.Text.Numeral
import ByteMachine.Yaml.Cursor

/-!
# Tags

A tag says what a node is. It is written in full between angle brackets, or as a handle and what follows
the text that a directive gives the handle. A percent sign and two digits of base sixteen stand for an
octet; the octets of a tag must be the encoding of characters, and each is kept as the character of its
number.
-/

namespace ByteMachine.Yaml

/-- A tag as it is written: what follows a handle, or the tag in full. -/
structure Tag where
  handle : Option String
  text : String
  deriving DecidableEq, Repr

namespace Tag

/-- The number of octets of a character whose encoding starts with this one. -/
def octetCount? (octet : Nat) : Option Nat :=
  if octet < 0x80 then some 1
  else if octet < 0xC0 then none
  else if octet < 0xE0 then some 2
  else if octet < 0xF0 then some 3
  else if octet < 0xF8 then some 4
  else none

/-- The number of octets that belong to a character after this one, of which `due` were expected. -/
def octetsDue? (due octet : Nat) : Option Nat :=
  match due with
  | 0 => (octetCount? octet).map (· - 1)
  | due + 1 => if 0x80 ≤ octet ∧ octet < 0xC0 then some due else none

/-- The text of a tag, and the number of characters that it takes; `due` octets are expected. -/
def text? (bracketed : Bool) (due : Nat) : List Char → Option (List Char × Nat)
  | '%' :: high :: low :: rest => do
    let octet ← Text.read? 16 [high, low]
    let (text, width) ← text? bracketed (← octetsDue? due octet) rest
    return (Char.ofNat octet :: text, width + 3)
  | c :: rest =>
    if 0 < due || c == '%' then none
    else if isTagChar bracketed c then
      (text? bracketed 0 rest).map fun (text, width) => (c :: text, width + 1)
    else some ([], 0)
  | [] => if 0 < due then none else some ([], 0)

/-- A text of a tag that is not empty. -/
def someText? (bracketed : Bool) (cs : List Char) : Option (List Char × Nat) :=
  (text? bracketed 0 cs).filter (0 < ·.2)

/-- The handle at the start of a text that follows an exclamation mark: that mark alone, or a name and
a second mark. -/
def handleAt (cs : List Char) : List Char :=
  let name := cs.takeWhile isNameChar
  if (cs.drop name.length).head? == some '!' then '!' :: name ++ ['!'] else ['!']

/-- The tag after an exclamation mark, and the number of characters after the mark. The mark alone is
a tag in full. -/
def afterMark? (cs : List Char) : Option (Tag × Nat) :=
  match cs with
  | '<' :: rest => do
    let (text, width) ← someText? true rest
    if (rest.drop width).head? == some '>' then some (⟨none, String.ofList text⟩, width + 2) else none
  | cs =>
    let handle := handleAt cs
    if handle.length == 1 then
      (text? false 0 cs).map fun (text, width) =>
        (if text.isEmpty then ⟨none, "!"⟩ else ⟨some "!", String.ofList text⟩, width)
    else do
      let (text, width) ← someText? false (cs.drop (handle.length - 1))
      return (⟨some (String.ofList handle), String.ofList text⟩, handle.length - 1 + width)

/-- The tag in full, by what the handles stand for. -/
def resolve? (handles : List (String × String)) (t : Tag) : Option String :=
  match t.handle with
  | none => some t.text
  | some handle => (handles.lookup handle).map (· ++ t.text)

/-- What the handles stand for without a directive. -/
def defaultHandles : List (String × String) := [("!", "!"), ("!!", "tag:yaml.org,2002:")]

end Tag

/-! ### Directives -/

/-- A line that concerns the reading of a document. -/
inductive Directive where
  /-- The version of the format. -/
  | version (major minor : Nat)
  /-- What a handle stands for. -/
  | handle (name text : String)
  deriving DecidableEq, Repr

namespace Directive

/-- A number of nine digits at most, and how many they are. -/
def number? (cs : List Char) : Option (Nat × Nat) :=
  let ds := cs.takeWhile Char.isDigit
  if 9 < ds.length then none else (Text.read? 10 ds).map (·, ds.length)

/-- The version at a place, and the place after it. -/
def version? (cur : Cursor) : Option (Directive × Cursor) := do
  let (major, width) ← number? cur.rest
  let cur := cur.skip width
  if cur.rest.head? == some '.' then
    let cur := cur.skip 1
    let (minor, width) ← number? cur.rest
    return (.version major minor, cur.skip width)
  else none

/-- The handle at a place and what it stands for, and the place after them. -/
def handle? (cur : Cursor) : Option (Directive × Cursor) := do
  if cur.rest.head? != some '!' then none
  else
    let handle := Tag.handleAt (cur.rest.drop 1)
    let cur := cur.skip handle.length
    if !cur.rest.head?.any isBlank then none
    else
      let cur := cur.skipBlanks
      let (text, width) ← Tag.someText? true cur.rest
      let cur := cur.skip width
      if atBlank cur.rest then
        return (.handle (String.ofList handle) (String.ofList text), cur)
      else none

/-- The directive after a percent sign, and the place after its line. -/
def read? (cur : Cursor) : Option (Directive × Cursor) := do
  let name := cur.rest.takeWhile isNameChar
  let cur := cur.skip name.length
  if !atBlank cur.rest then none
  else
    let body := cur.skipBlanks
    let (directive, cur) ←
      if name == "YAML".toList then version? body
      else if name == "TAG".toList then handle? body
      else none
    return (directive, ← cur.finishLine?)

/-- The handles of directives, if each of them can be followed: there is one version at most, 1.1 or
1.2, and no handle occurs twice. -/
def handles? (ds : List Directive) : Option (List (String × String)) :=
  let versions := ds.filterMap fun
    | .version major minor => some (major, minor)
    | .handle _ _ => none
  let handles := ds.filterMap fun
    | .version _ _ => none
    | .handle name text => some (name, text)
  if versions.length ≤ 1 ∧ versions.all (fun v => v.1 = 1 ∧ (v.2 = 1 ∨ v.2 = 2)) ∧
      (handles.map Prod.fst).Nodup then
    some (handles ++ Tag.defaultHandles)
  else none

end Directive

end ByteMachine.Yaml
