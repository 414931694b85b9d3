import ByteMachine.Yaml.Node

/-!
# The grammar of documents

The nodes that a list of tokens stands for. A block may stand where a line can start, a flow
everywhere; the items of a sequence that is the value of a key may be indented like the key. Each
function answers what it read and the tokens that are left; the depth of the recursion is bounded by a
count that is larger than the number of tokens.
-/

namespace ByteMachine.Yaml

/-- What may start where a node is expected, other than scalars, flows and references. -/
inductive Place where
  | flow
  | block
  /-- The key or the value of a block mapping, where a sequence needs no indentation. -/
  | entry
  deriving DecidableEq, Repr

/-- The anchor and the tag at the start of tokens, each of them once at most and in any order. -/
def Properties.read? (handles : List (String × String)) :
    List Token → Option (Properties × List Token)
  | .anchor a :: .tag t :: rest => do return ({ anchor := a, tag := ← t.resolve? handles }, rest)
  | .tag t :: .anchor a :: rest => do return ({ anchor := a, tag := ← t.resolve? handles }, rest)
  | .anchor a :: rest => some ({ anchor := a }, rest)
  | .tag t :: rest => do return ({ tag := ← t.resolve? handles }, rest)
  | ts => some ({}, ts)

namespace Node

/-- The token ends an absent item of a block sequence. -/
def endsItem (t : Token) : Bool := t == .item || t == .blockEnd

/-- The token ends an absent key or value of a block mapping. -/
def endsEntry (t : Token) : Bool := t == .key || t == .value || t == .blockEnd

/-- The token ends an absent item of a sequence that is not indented. -/
def endsLooseItem (t : Token) : Bool := t == .item || endsEntry t

/-- The token ends an absent value of a flow that ends with `last`. -/
def endsFlowValue (last t : Token) : Bool := t == .comma || t == last

/-- The token ends an absent key of a flow that ends with `last`. -/
def endsFlowKey (last t : Token) : Bool := t == .value || endsFlowValue last t

mutual

/-- The node at the start of tokens. -/
def read? (handles : List (String × String)) :
    Nat → Place → List Token → Option (Node × List Token)
  | 0, _, _ => none
  | _ + 1, _, .reference a :: rest => some (.reference a, rest)
  | fuel + 1, place, ts => do
    let (p, ts) ← Properties.read? handles ts
    match ts, place with
    | .item :: _, .entry => looseItems? handles fuel p [] ts
    | .scalar style text :: rest, _ => some (.scalar p style text, rest)
    | .flowSequence :: rest, _ => flowItems? handles fuel p [] rest
    | .flowMapping :: rest, _ => flowEntries? handles fuel p [] rest
    | .blockSequence :: rest, .block | .blockSequence :: rest, .entry =>
      blockItems? handles fuel p [] rest
    | .blockMapping :: rest, .block | .blockMapping :: rest, .entry =>
      blockEntries? handles fuel p [] rest
    | ts, _ => if p == {} then none else some (.scalar p .plain "", ts)

/-- The node at the start of tokens, which is absent if one of the tokens that end it stands there. -/
def optional? (handles : List (String × String)) :
    Nat → Place → (Token → Bool) → List Token → Option (Node × List Token)
  | 0, _, _, _ => none
  | fuel + 1, place, ends, ts =>
    if ts.head?.any ends then some (.empty, ts) else read? handles fuel place ts

/-- The node after a colon, which is absent if there is no colon. -/
def value? (handles : List (String × String)) :
    Nat → Place → (Token → Bool) → List Token → Option (Node × List Token)
  | 0, _, _, _ => none
  | fuel + 1, place, ends, .value :: rest => optional? handles fuel place ends rest
  | _ + 1, _, _, ts => some (.empty, ts)

/-- A block sequence, after its first items in reverse order. -/
def blockItems? (handles : List (String × String)) :
    Nat → Properties → List Node → List Token → Option (Node × List Token)
  | 0, _, _, _ => none
  | fuel + 1, p, items, .item :: rest => do
    let (item, ts) ← optional? handles fuel .block endsItem rest
    blockItems? handles fuel p (item :: items) ts
  | _ + 1, p, items, .blockEnd :: rest => some (.sequence p items.reverse, rest)
  | _ + 1, _, _, _ => none

/-- A block sequence that is not indented, after its first items in reverse order. It ends where no
item follows. -/
def looseItems? (handles : List (String × String)) :
    Nat → Properties → List Node → List Token → Option (Node × List Token)
  | 0, _, _, _ => none
  | fuel + 1, p, items, .item :: rest => do
    let (item, ts) ← optional? handles fuel .block endsLooseItem rest
    looseItems? handles fuel p (item :: items) ts
  | _ + 1, p, items, ts => some (.sequence p items.reverse, ts)

/-- A block mapping, after its first entries in reverse order. -/
def blockEntries? (handles : List (String × String)) :
    Nat → Properties → List (Node × Node) → List Token → Option (Node × List Token)
  | 0, _, _, _ => none
  | fuel + 1, p, entries, .key :: rest => do
    let (key, ts) ← optional? handles fuel .entry endsEntry rest
    let (value, ts) ← value? handles fuel .entry endsEntry ts
    blockEntries? handles fuel p ((key, value) :: entries) ts
  | _ + 1, p, entries, .blockEnd :: rest => some (.mapping p entries.reverse, rest)
  | _ + 1, _, _, _ => none

/-- A flow sequence, after its first items in reverse order; an item may be a single entry. Where the
key of that entry is absent, the token that ends it counts for nothing. -/
def flowItems? (handles : List (String × String)) :
    Nat → Properties → List Node → List Token → Option (Node × List Token)
  | 0, _, _, _ => none
  | _ + 1, p, items, .flowSequenceEnd :: rest => some (.sequence p items.reverse, rest)
  | fuel + 1, p, items, ts => do
    let (item, ts) ← match ts with
      | .key :: rest => do
        let (key, ts) ←
          if rest.head?.any (endsFlowKey .flowSequenceEnd) then some (.empty, rest.drop 1)
          else read? handles fuel .flow rest
        let (value, ts) ← value? handles fuel .flow (endsFlowValue .flowSequenceEnd) ts
        pure (mapping {} [(key, value)], ts)
      | ts => read? handles fuel .flow ts
    match ts with
    | .comma :: rest => flowItems? handles fuel p (item :: items) rest
    | .flowSequenceEnd :: rest => some (.sequence p (item :: items).reverse, rest)
    | _ => none

/-- A flow mapping, after its first entries in reverse order. A node that is not known as a key has no
value. -/
def flowEntries? (handles : List (String × String)) :
    Nat → Properties → List (Node × Node) → List Token → Option (Node × List Token)
  | 0, _, _, _ => none
  | _ + 1, p, entries, .flowMappingEnd :: rest => some (.mapping p entries.reverse, rest)
  | fuel + 1, p, entries, ts => do
    let (entry, ts) ← match ts with
      | .key :: rest => do
        let (key, ts) ← optional? handles fuel .flow (endsFlowKey .flowMappingEnd) rest
        let (value, ts) ← value? handles fuel .flow (endsFlowValue .flowMappingEnd) ts
        pure ((key, value), ts)
      | ts => do
        let (key, ts) ← read? handles fuel .flow ts
        pure ((key, .empty), ts)
    match ts with
    | .comma :: rest => flowEntries? handles fuel p (entry :: entries) rest
    | .flowMappingEnd :: rest => some (.mapping p (entry :: entries).reverse, rest)
    | _ => none

end

/-- A bound for the depth of the recursion over tokens. -/
def depthMax (ts : List Token) : Nat := 4 * ts.length + 8

/-- The node of the one document that tokens stand for. Without a mark of its start, a document starts
with a node; with one, directives may stand before it. Marks of its end may follow. -/
def ofTokens? (ts : List Token) : Option Node := do
  let explicit := ts.head?.any fun t =>
    match t with
    | .directive _ | .documentStart => true
    | _ => false
  if ts.isEmpty then return .empty
  else
    let directives := ts.takeWhile fun t =>
      match t with
      | .directive _ => true
      | _ => false
    let ds := directives.filterMap fun t =>
      match t with
      | .directive d => some d
      | _ => none
    let handles ← Directive.handles? ds
    let body := ts.drop directives.length
    let (node, rest) ← match explicit, body with
      | false, body => read? handles (depthMax body) .block body
      | true, .documentStart :: body =>
        if body.isEmpty || body.head?.any (fun t =>
            match t with
            | .directive _ | .documentStart | .documentEnd => true
            | _ => false) then
          some (.empty, body)
        else read? handles (depthMax body) .block body
      | true, _ => none
    if rest.all (· == .documentEnd) then return node else none

end Node

end ByteMachine.Yaml
