import PipelineEditor.Yaml.Token

/-!
# The nodes of a YAML document

A document is one node: a scalar, a sequence or a mapping.  A node may carry a tag, whose handle the
document has to know, and an anchor.  A reference to the anchor stands for the whole node; what a
document says is therefore the tree with every reference replaced.  References may blow a small text
up, so their number is bounded by the size of the text, and the depth of the tree is bounded too.

* `Node` — the tree;
* `Reading` — the tokens still to be read, with the anchors met so far;
* `Node.ofTokens?` — **the node of a text's only document**, an empty one counting as an empty
  plain scalar.
-/

namespace PipelineEditor.Yaml

/-- A node with every reference replaced, and with its tag if it has one. -/
inductive Node where
  | scalar (tag : Option TagText) (text : String) (plain : Bool)
  | sequence (tag : Option TagText) (entries : List Node)
  | mapping (tag : Option TagText) (entries : List (Node × Node))

namespace Node

/-- What stands where nothing is written. -/
def empty : Node := .scalar none "" true

instance : Inhabited Node := ⟨empty⟩

mutual
/-- The number of collections that stand inside one another. -/
def depth : Node → Nat
  | scalar _ _ _ => 0
  | sequence _ entries => depthOfAll entries + 1
  | mapping _ entries => depthOfPairs entries + 1

/-- The depth of the deepest entry of a sequence. -/
def depthOfAll : List Node → Nat
  | [] => 0
  | n :: rest => max n.depth (depthOfAll rest)

/-- The depth of the deepest key or value of a mapping. -/
def depthOfPairs : List (Node × Node) → Nat
  | [] => 0
  | (k, v) :: rest => max (max k.depth v.depth) (depthOfPairs rest)
end

end Node

/-! ## The state of the reading -/

/-- An anchor: the name, and the node with the number of references in it once it has been read
to its end. -/
structure Anchor where
  name : String
  node : Option (Node × Nat)

/-- The state of the reading. -/
structure Reading where
  tokens : List Token
  /-- The handles of the document, with the beginnings of their tags. -/
  shorthands : List (String × TagText)
  /-- The anchors so far, the latest first. -/
  anchors : List Anchor
  /-- The number of beginnings and ends of nodes that are written in the text. -/
  written : Nat
  /-- The number of references that have been replaced, also in what replaced others. -/
  replaced : Nat

namespace Reading

/-- The next token. -/
def next? (r : Reading) : Option Token := r.tokens.head?

/-- The state after a token. -/
def skip (r : Reading) : Reading := { r with tokens := r.tokens.tail }

/-- The state after `n` more beginnings and ends. -/
def count (r : Reading) (n : Nat) : Reading := { r with written := r.written + n }

/-- Replaces a reference by the node with the latest anchor of that name. -/
def resolve? (r : Reading) (name : String) : Option (Node × Reading) :=
  match (r.anchors.find? fun a => a.name == name).bind Anchor.node with
  | some (node, inside) => some (node, { r with replaced := r.replaced + 1 + inside })
  | none => none

/-- An empty node, and the state after it. -/
def emptyNode (r : Reading) : Node × Reading := (.empty, r.count 1)

/-- Whether a node is left out before a token of the given ones, or at the end of the text. -/
def omits (r : Reading) (marks : List Token) : Bool :=
  match r.next? with
  | some t => marks.contains t
  | none => false

end Reading

/-! ## Reading nodes -/

/-- What stands in front of a node: an anchor and a tag, or one of them, or neither. -/
structure Properties where
  anchor : Option String
  tag : Option Tag

/-- The anchor and the tag in front of a node, in either order. -/
def takeProperties (r : Reading) : Properties × Reading :=
  match r.tokens with
  | .anchor name :: .tag tag :: rest => (⟨some name, some tag⟩, { r with tokens := rest })
  | .tag tag :: .anchor name :: rest => (⟨some name, some tag⟩, { r with tokens := rest })
  | .anchor name :: rest => (⟨some name, none⟩, { r with tokens := rest })
  | .tag tag :: rest => (⟨none, some tag⟩, { r with tokens := rest })
  | _ => (⟨none, none⟩, r)

/-- The text of the tag in front of a node, which is an error if its handle is unknown. -/
def tagText? (r : Reading) : Option Tag → Option (Option TagText)
  | some tag => (tag.text? r.shorthands).map some
  | none => some none

/-- The tag that counts for a scalar which is written out: the mark alone says nothing about it. -/
def scalarTag (tag : Option TagText) : Option TagText := tag.filter (· != TagText.ofString "!")

/-- Where a node stands: whether it may be written in block style, and whether it may be a
sequence whose dashes stand in the column of the mapping around it. -/
inductive Style where
  | flow
  | block
  | blockValue
  deriving DecidableEq

mutual
/-- Reads a node. -/
def node? : Nat → Style → Reading → Option (Node × Reading)
  | 0, _, _ => none
  | fuel + 1, style, r =>
    match r.next? with
    | some (.reference name) => (r.skip.count 1).resolve? name
    | _ =>
      let (properties, r) := takeProperties r
      match tagText? r properties.tag, properties.anchor with
      | none, _ => none
      | some tag, none => content? fuel style false tag r
      | some tag, some name =>
        let opened := { r with anchors := ⟨name, none⟩ :: r.anchors }
        match content? fuel style true tag opened with
        | none => none
        | some (node, after) =>
          let own := after.anchors.length - opened.anchors.length
          let anchor : Anchor := ⟨name, some (node, after.replaced - r.replaced)⟩
          some (node, { after with anchors := after.anchors.set own anchor })

/-- Reads what follows the anchor and the tag of a node; only after one of them it may be left
out. -/
def content? : Nat → Style → Bool → Option TagText → Reading → Option (Node × Reading)
  | 0, _, _, _, _ => none
  | fuel + 1, style, anchored, tag, r =>
    let sequence (entries : Option (List Node × Reading)) : Option (Node × Reading) :=
      entries.map fun e => (.sequence tag e.1, e.2)
    let mapping (entries : Option (List (Node × Node) × Reading)) : Option (Node × Reading) :=
      entries.map fun e => (.mapping tag e.1, e.2)
    let omitted : Option (Node × Reading) :=
      if anchored || tag.isSome then some (.scalar tag "" true, r.count 1) else none
    match r.next? with
    | some .blockEntry =>
      if style = .blockValue then sequence (dashes? fuel (r.count 2)) else omitted
    | some (.scalar text plain) => some (.scalar (scalarTag tag) text plain, r.skip.count 1)
    | some .flowSequence => sequence (flowEntries? fuel true (r.skip.count 2))
    | some .flowMapping => mapping (flowPairs? fuel true (r.skip.count 2))
    | some .blockSequence =>
      if style ≠ .flow then sequence (blockEntries? fuel (r.skip.count 2)) else omitted
    | some .blockMapping =>
      if style ≠ .flow then mapping (blockPairs? fuel (r.skip.count 2)) else omitted
    | _ => omitted

/-- Reads a node unless a token of the given ones shows that it is left out. -/
def nodeUnless? : Nat → Style → List Token → Reading → Option (Node × Reading)
  | 0, _, _, _ => none
  | fuel + 1, style, marks, r => if r.omits marks then some r.emptyNode else node? fuel style r

/-- Reads the entries of a block sequence and its end. -/
def blockEntries? : Nat → Reading → Option (List Node × Reading)
  | 0, _ => none
  | fuel + 1, r =>
    match r.next? with
    | some .blockEntry =>
      match nodeUnless? fuel .block [.blockEntry, .blockEnd] r.skip with
      | none => none
      | some (node, r) => (blockEntries? fuel r).map fun e => (node :: e.1, e.2)
    | some .blockEnd => some ([], r.skip)
    | _ => none

/-- Reads the entries of a sequence that stands in the column of the mapping around it. -/
def dashes? : Nat → Reading → Option (List Node × Reading)
  | 0, _ => none
  | fuel + 1, r =>
    match r.next? with
    | some .blockEntry =>
      match nodeUnless? fuel .block [.blockEntry, .key, .value, .blockEnd] r.skip with
      | none => none
      | some (node, r) => (dashes? fuel r).map fun e => (node :: e.1, e.2)
    | _ => some ([], r)

/-- Reads the pairs of a block mapping and its end. -/
def blockPairs? : Nat → Reading → Option (List (Node × Node) × Reading)
  | 0, _ => none
  | fuel + 1, r =>
    match r.next? with
    | some .key =>
      match nodeUnless? fuel .blockValue [.key, .value, .blockEnd] r.skip with
      | none => none
      | some (k, r) =>
        match blockValue? fuel r with
        | none => none
        | some (v, r) => (blockPairs? fuel r).map fun e => ((k, v) :: e.1, e.2)
    | some .blockEnd => some ([], r.skip)
    | _ => none

/-- Reads the value of a pair of a block mapping. -/
def blockValue? : Nat → Reading → Option (Node × Reading)
  | 0, _ => none
  | fuel + 1, r =>
    match r.next? with
    | some .value => nodeUnless? fuel .blockValue [.key, .value, .blockEnd] r.skip
    | _ => some r.emptyNode

/-- Reads the entries of a flow sequence and its end.  An entry that begins with a key is a
mapping with one pair. -/
def flowEntries? : Nat → Bool → Reading → Option (List Node × Reading)
  | 0, _, _ => none
  | fuel + 1, first, r =>
    if r.next? = some .flowSequenceEnd then some ([], r.skip)
    else
      match (if first then some r else if r.next? = some .flowEntry then some r.skip else none) with
      | none => none
      | some r =>
        match r.next? with
        | some .flowSequenceEnd => some ([], r.skip)
        | some .key =>
          match flowPair? fuel (r.skip.count 2) with
          | none => none
          | some (pair, r) => (flowEntries? fuel false r).map fun e =>
            (.mapping none [pair] :: e.1, e.2)
        | _ =>
          match node? fuel .flow r with
          | none => none
          | some (node, r) => (flowEntries? fuel false r).map fun e => (node :: e.1, e.2)

/-- Reads the pair of a flow sequence after the token for its key.  A key that is left out takes
the next token with it. -/
def flowPair? : Nat → Reading → Option ((Node × Node) × Reading)
  | 0, _ => none
  | fuel + 1, r =>
    let marks : List Token := [.value, .flowEntry, .flowSequenceEnd]
    let key := if r.omits marks then some (r.emptyNode.1, r.skip.count 1) else node? fuel .flow r
    match key with
    | none => none
    | some (k, r) =>
      (flowValue? fuel [.flowEntry, .flowSequenceEnd] r).map fun v => ((k, v.1), v.2)

/-- Reads the pairs of a flow mapping and its end.  A node without a colon is a key without a
value. -/
def flowPairs? : Nat → Bool → Reading → Option (List (Node × Node) × Reading)
  | 0, _, _ => none
  | fuel + 1, first, r =>
    if r.next? = some .flowMappingEnd then some ([], r.skip)
    else
      match (if first then some r else if r.next? = some .flowEntry then some r.skip else none) with
      | none => none
      | some r =>
        match r.next? with
        | some .flowMappingEnd => some ([], r.skip)
        | some .key =>
          match nodeUnless? fuel .flow [.value, .flowEntry, .flowMappingEnd] r.skip with
          | none => none
          | some (k, r) =>
            match flowValue? fuel [.flowEntry, .flowMappingEnd] r with
            | none => none
            | some (v, r) => (flowPairs? fuel false r).map fun e => ((k, v) :: e.1, e.2)
        | _ =>
          match node? fuel .flow r with
          | none => none
          | some (k, r) =>
            (flowPairs? fuel false (r.count 1)).map fun e => ((k, .empty) :: e.1, e.2)

/-- Reads the value of a pair of a flow collection. -/
def flowValue? : Nat → List Token → Reading → Option (Node × Reading)
  | 0, _, _ => none
  | fuel + 1, marks, r =>
    if r.next? = some .value then nodeUnless? fuel .flow marks r.skip else some r.emptyNode
end

/-! ## Documents -/

/-- The number of collections that may stand inside one another. -/
def depthLimit : Nat := 128

/-- The number of references that may be replaced for each beginning or end in the text. -/
def replacementLimit : Nat := 100

/-- Reads a node at the top of a document. -/
def top? (shorthands : List (String × TagText)) (tokens : List Token) : Option (Node × Reading) :=
  node? (4 * tokens.length + 4) .block ⟨tokens, shorthands, [], 0, 0⟩

/-- The directives in front of a document, and what follows them. -/
def takeDirectives : List Token → List Directive × List Token
  | .directive directive :: tokens =>
    let (directives, rest) := takeDirectives tokens
    (directive :: directives, rest)
  | tokens => ([], tokens)

/-- Whether nothing but ends of documents follows. -/
def endsText (tokens : List Token) : Bool := tokens.all (· == .documentEnd)

/-- Reads the only document of a text, after its directives if there are any. -/
def document? (shorthands : List (String × TagText)) (directed : Bool) (tokens : List Token) :
    Option Node :=
  let (marked, rest) := match tokens with
    | .documentStart :: rest => (true, rest)
    | _ => (false, tokens)
  let absent := match rest with
    | [] => true
    | .documentEnd :: _ => marked
    | _ => false
  if directed && !marked then none
  else if absent then (if endsText rest then some .empty else none)
  else
    match top? shorthands rest with
    | none => none
    | some (node, after) =>
      if endsText after.tokens && decide (after.replaced ≤ replacementLimit * after.written)
          && decide (node.depth ≤ depthLimit) then some node
      else none

/-- The node of a text's only document. -/
def Node.ofTokens? (tokens : List Token) : Option Node :=
  let (directives, rest) := takeDirectives tokens
  (shorthands? directives).bind fun shorthands => document? shorthands (!directives.isEmpty) rest

end PipelineEditor.Yaml
