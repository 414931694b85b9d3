import ByteMachine.Yaml.Node.Grammar
import ByteMachine.Yaml.Token.Lexer

/-!
# Trees with references

A document whose references can be followed: a reference stands for the last node that has its anchor.
In one reading, references can be followed so many times as is in proportion to the size of the
document, lest few nodes stand for many.

Main statements: `follow_of_ne_reference`, `follow_reference`.
-/

namespace ByteMachine.Yaml

/-- A document, with the nodes that have an anchor, the last one first. -/
structure Tree where
  root : Node
  targets : List (Nat × Node)

/-- A part of a reading, which knows how many more references can be followed. -/
abbrev Reading := StateT Nat Option

namespace Tree

/-- The document of a node. -/
def ofNode (n : Node) : Tree := ⟨n, n.anchored.reverse⟩

/-- The document of a text. -/
def ofText? (text : String) : Option Tree := do return ofNode (← Node.ofTokens? (← tokens? text))

/-- The number of references that can be followed in one reading, for each start or end of a node. -/
def followsPerEvent : Nat := 100

/-- What a reading of the document answers. -/
def read? {α : Type} (t : Tree) (reading : Tree → Reading α) : Option α :=
  (reading t).run' (followsPerEvent * t.root.eventCount)

/-- The node that a node stands for. -/
def follow (t : Tree) : Node → Reading Node
  | .reference a => fun left =>
    match left with
    | 0 => none
    | left + 1 => (t.targets.lookup a).map (·, left)
  | n => pure n

theorem follow_reference (t : Tree) (a left : Nat) :
    (t.follow (.reference a)).run (left + 1) = (t.targets.lookup a).map (·, left) := rfl

theorem follow_of_ne_reference (t : Tree) {n : Node} (h : ∀ a, n ≠ .reference a) :
    t.follow n = pure n := by
  cases n with
  | reference a => exact absurd rfl (h a)
  | _ => rfl

/-- The number that a node stands for, up to `max`. -/
def natural (t : Tree) (max : Nat) (n : Node) : Reading Nat := do (← t.follow n).toNat? max

/-- The truth value that a node stands for. -/
def truth (t : Tree) (n : Node) : Reading Bool := do (← t.follow n).toBool?

/-- The text that a node stands for. -/
def text (t : Tree) (n : Node) : Reading String := do (← t.follow n).toText?

/-- The items of the sequence that a node stands for. -/
def items (t : Tree) (n : Node) : Reading (List Node) := do (← t.follow n).items?

/-- The entries of the mapping that a node stands for. -/
def entries (t : Tree) (n : Node) : Reading (List (Node × Node)) := do (← t.follow n).entries?

/-- The entries of a mapping whose keys are scalars, by the texts of the keys. -/
def fields (t : Tree) (n : Node) : Reading (List (String × Node)) := do
  (← t.entries n).mapM fun (key, value) => return (← t.text key, value)

end Tree

/-- The value of a field, if the field is there; a field that is there twice is refused. -/
def field? (fields : List (String × Node)) (name : String) : Option (Option Node) :=
  match fields.filter (·.1 == name) with
  | [] => some none
  | [(_, value)] => some (some value)
  | _ => none

end ByteMachine.Yaml
