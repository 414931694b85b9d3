import ByteMachine.Text.Numeral
import ByteMachine.Yaml.Token

/-!
# YAML nodes

A document is a tree of scalars, sequences, mappings, and references to nodes that have an anchor.
Whether a scalar is a number or a truth value is decided where it is used. An absent value is an empty
plain scalar, which serves as an empty sequence or mapping, too.

Main statements: `toNat?_le`, `eventCount_pos`.
-/

namespace ByteMachine.Yaml

/-- What stands before a node: the number of its anchor, and its tag. -/
structure Properties where
  anchor : Option Nat := none
  tag : Option String := none
  deriving DecidableEq, Repr

/-- A part of a document. -/
inductive Node where
  | scalar (properties : Properties) (style : ScalarStyle) (text : String)
  | sequence (properties : Properties) (items : List Node)
  | mapping (properties : Properties) (entries : List (Node × Node))
  | reference (anchor : Nat)

/-- The number of a text without a sign, in base ten, or after `0x`, `0o` or `0b` in another base. A
decimal number has no needless zeros. -/
def natural? (cs : List Char) : Option Nat :=
  match cs with
  | '0' :: 'x' :: ds => Text.read? 16 ds
  | '0' :: 'o' :: ds => Text.read? 8 ds
  | '0' :: 'b' :: ds => Text.read? 2 ds
  | '0' :: _ :: _ => none
  | ds => Text.read? 10 ds

/-- The number of a text, which may start with a plus sign. -/
def unsigned? (text : String) : Option Nat :=
  match text.toList with
  | '+' :: cs => natural? cs
  | cs => natural? cs

/-- The truth value of a text. -/
def truth? (text : String) : Option Bool :=
  if ["true", "True", "TRUE"].contains text then some true
  else if ["false", "False", "FALSE"].contains text then some false
  else none

namespace Node

/-- A value that is absent. -/
def empty : Node := .scalar {} .plain ""

/-- The text of a scalar that can be a value of a type: it is plain, or literal with the tag of the
type. -/
def typedText? (tag : String) : Node → Option String
  | .scalar _ .plain text => some text
  | .scalar p .literal text => if p.tag == some tag then some text else none
  | _ => none

/-- The number of a scalar, up to `max`. -/
def toNat? (max : Nat) (n : Node) : Option Nat :=
  ((n.typedText? "tag:yaml.org,2002:int").bind unsigned?).filter (· ≤ max)

theorem toNat?_le {max k : Nat} {n : Node} (h : n.toNat? max = some k) : k ≤ max := by
  simpa using (Option.filter_eq_some_iff.mp h).2

/-- The truth value of a scalar. -/
def toBool? (n : Node) : Option Bool := (n.typedText? "tag:yaml.org,2002:bool").bind truth?

/-- The text of a scalar. -/
def toText? : Node → Option String
  | .scalar _ _ text => some text
  | _ => none

/-- The items of a sequence. -/
def items? : Node → Option (List Node)
  | .sequence _ items => some items
  | .scalar _ .plain "" => some []
  | _ => none

/-- The entries of a mapping. -/
def entries? : Node → Option (List (Node × Node))
  | .mapping _ entries => some entries
  | .scalar _ .plain "" => some []
  | _ => none

/-! ### The nodes below a node -/

mutual

/-- The number of starts and ends of nodes, of a scalar or a reference just one. -/
def eventCount : Node → Nat
  | .scalar _ _ _ => 1
  | .reference _ => 1
  | .sequence _ items => eventCountItems items + 2
  | .mapping _ entries => eventCountEntries entries + 2

/-- The number of starts and ends in the items of a sequence. -/
def eventCountItems : List Node → Nat
  | [] => 0
  | n :: rest => n.eventCount + eventCountItems rest

/-- The number of starts and ends in the entries of a mapping. -/
def eventCountEntries : List (Node × Node) → Nat
  | [] => 0
  | (key, value) :: rest => key.eventCount + value.eventCount + eventCountEntries rest

end

theorem eventCount_pos (n : Node) : 0 < n.eventCount := by
  cases n <;> simp [eventCount]

mutual

/-- The node and the nodes below it that have an anchor, by its number, in the order in which they
start. -/
def anchored : Node → List (Nat × Node)
  | .scalar p style text => (p.anchor.map (·, .scalar p style text)).toList
  | .reference _ => []
  | .sequence p items => (p.anchor.map (·, .sequence p items)).toList ++ anchoredItems items
  | .mapping p entries => (p.anchor.map (·, .mapping p entries)).toList ++ anchoredEntries entries

/-- The nodes with an anchor in the items of a sequence. -/
def anchoredItems : List Node → List (Nat × Node)
  | [] => []
  | n :: rest => n.anchored ++ anchoredItems rest

/-- The nodes with an anchor in the entries of a mapping. -/
def anchoredEntries : List (Node × Node) → List (Nat × Node)
  | [] => []
  | (key, value) :: rest => key.anchored ++ value.anchored ++ anchoredEntries rest

end

end Node

end ByteMachine.Yaml
