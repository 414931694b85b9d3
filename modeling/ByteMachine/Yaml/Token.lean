import ByteMachine.Yaml.Tag

/-!
# Tokens of YAML texts

What a text is made of, once indentation and keys are marked: a block has a token at its start and at
its end, and each key that is followed by a colon has a token before it.
-/

namespace ByteMachine.Yaml

/-- How a scalar is written. -/
inductive ScalarStyle where
  | plain
  | quoted
  | literal
  | folded
  deriving DecidableEq, Repr

/-- A token. An anchor, and a reference to a node with an anchor, carries the number of the anchor. -/
inductive Token where
  | directive (d : Directive)
  | documentStart
  | documentEnd
  | blockSequence
  | blockMapping
  | blockEnd
  | flowSequence
  | flowSequenceEnd
  | flowMapping
  | flowMappingEnd
  /-- The dash before an item of a block sequence. -/
  | item
  /-- The comma between the items or entries of a flow. -/
  | comma
  | key
  | value
  | anchor (number : Nat)
  | reference (number : Nat)
  | tag (t : Tag)
  | scalar (style : ScalarStyle) (text : String)
  deriving DecidableEq, Repr

end ByteMachine.Yaml
