import PipelineEditor.Source.Basic
import PipelineEditor.Yaml.Node

/-!
# The values of YAML nodes

What a plain scalar means is decided by its spelling: null, a truth value, an integer, a real
number, or else a text.  Quoted scalars and blocks are texts whatever they look like.  A tag that
begins with a mark is kept beside the value; the tags of the language itself decide the kind of a
scalar, and any other tag makes it a text.  A mapping may have keys of every kind, but no key twice.

* `Scalar.plainValue?` — **the value of a plain scalar**; an integer that needs more than 64 bits
  but not more than 128 has none;
* `Scalar.taggedValue?` — the value of a scalar under a tag that is not kept;
* `Value.ofNode?` — the value of a node, unless a key comes twice;
* `Value.toSource` — a value as a source tree, ready for a typed reading.
-/

namespace PipelineEditor.Yaml

/-- A value. -/
inductive Value where
  | null
  | bool (value : Bool)
  | number (value : Number)
  | infinite (negative : Bool)
  | notANumber
  | string (text : String)
  | sequence (entries : List Value)
  | mapping (entries : List (Value × Value))
  | tagged (name : String) (value : Value)

namespace Value

instance : Inhabited Value := ⟨null⟩

/-- Whether two numbers count as one key: both zeros of the reals do. -/
def sameNumber : Number → Number → Bool
  | .int a _, .int b _ => a == b
  | .real a, .real b => a == b || (a.isZero && b.isZero)
  | _, _ => false

/-- The name of a tag without the mark in front, unless it is nothing else. -/
def bareName (name : String) : List Char :=
  match name.toList with
  | '!' :: c :: rest => c :: rest
  | cs => cs

mutual
/-- Whether two values are the same key; the order of a mapping does not matter. -/
def same : Value → Value → Bool
  | null, null => true
  | bool a, bool b => a == b
  | number a, number b => sameNumber a b
  | infinite a, infinite b => a == b
  | notANumber, notANumber => true
  | string a, string b => a == b
  | sequence as, sequence bs => sameEntries as bs
  | mapping as, mapping bs => as.length == bs.length && samePairs as bs
  | tagged name a, tagged other b => bareName name == bareName other && same a b
  | _, _ => false

/-- Whether two sequences have the same entries. -/
def sameEntries : List Value → List Value → Bool
  | [], [] => true
  | a :: as, b :: bs => same a b && sameEntries as bs
  | _, _ => false

/-- Whether every pair of the first mapping occurs in the second. -/
def samePairs : List (Value × Value) → List (Value × Value) → Bool
  | [], _ => true
  | (k, v) :: as, bs => (bs.any fun b => same k b.1 && same v b.2) && samePairs as bs
end

/-- Whether no key comes twice. -/
def keysDiffer : List (Value × Value) → Bool
  | [] => true
  | (k, _) :: rest => !(rest.any fun e => same k e.1) && keysDiffer rest

end Value

/-! ## Plain scalars -/

namespace Scalar

/-- The natural number that one or more digits of a base name. -/
def natIn? (base : Nat) (digits : List Char) : Option Nat :=
  if digits.isEmpty then none else Text.numberOf? base digits

/-- The natural number that digits with or without the mark of a base name.  Decimal digits may
not begin with a zero. -/
def natural? : List Char → Option Nat
  | '0' :: 'x' :: digits => natIn? 16 digits
  | '0' :: 'o' :: digits => natIn? 8 digits
  | '0' :: 'b' :: digits => natIn? 2 digits
  | '0' :: _ :: _ => none
  | digits => natIn? 10 digits

/-- The integer that a scalar names. -/
def integer? : List Char → Option Int
  | '-' :: digits => (natural? digits).map fun n => -(n : Int)
  | '+' :: digits => (natural? digits).map Int.ofNat
  | digits => (natural? digits).map Int.ofNat

/-- Whether an integer fits an unsigned or a signed 128-bit word. -/
def fitsDoubleWord (n : Int) : Bool :=
  decide (-170141183460469231731687303715884105728 ≤ n)
    && decide (n < 340282366920938463463374607431768211456)

/-- A real number taken apart.  Digits may be missing on one side of the point. -/
def realNumeral? (cs : List Char) : Option Numeral :=
  let (negative, cs) := Numeral.takeMinus cs
  let whole := cs.takeWhile Char.isDigit
  let rest := cs.dropWhile Char.isDigit
  let (fraction, rest) := match rest with
    | '.' :: rest => (rest.takeWhile Char.isDigit, rest.dropWhile Char.isDigit)
    | rest => ([], rest)
  if whole.isEmpty && fraction.isEmpty then none
  else (Numeral.scanExponent? rest).map fun e => ⟨negative, whole, some fraction, e⟩

/-- Whether a scalar is a row of digits that begins with a zero, which makes it a text. -/
def isPaddedRow (cs : List Char) : Bool :=
  let digits := match cs with
    | '-' :: rest => rest
    | '+' :: rest => rest
    | _ => cs
  match digits with
  | '0' :: d :: rest => (d :: rest).all Char.isDigit
  | _ => false

/-- The real number that a scalar names, infinite ones and the one that is no number included. -/
def real? (cs : List Char) : Option Value :=
  let (plus, bare) := match cs with
    | '+' :: rest => (true, rest)
    | _ => (false, cs)
  let text := String.ofList bare
  if text ∈ [".inf", ".Inf", ".INF"] then some (.infinite false)
  else if text ∈ ["-.inf", "-.Inf", "-.INF"] ∧ !plus then some (.infinite true)
  else if text ∈ [".nan", ".NaN", ".NAN"] ∧ !plus then some .notANumber
  else if plus ∧ bare.head? = some '-' then none
  else ((realNumeral? bare).bind Numeral.nearest?).map .number

/-- Whether a scalar is one of the words for null. -/
def isNull (text : String) : Bool := ["null", "Null", "NULL", "~"].contains text

/-- The truth value that a scalar names. -/
def truth? (text : String) : Option Bool :=
  if text ∈ ["true", "True", "TRUE"] then some true
  else if text ∈ ["false", "False", "FALSE"] then some false
  else none

/-- An integer as a value, if it needs no more than 64 bits. -/
def wordValue? (n : Int) : Option Value :=
  if h : FitsWord n then some (.number (.int n h)) else none

/-- The value of a plain scalar. -/
def plainValue? (text : String) : Option Value :=
  let cs := text.toList
  if text.isEmpty || isNull text then some .null
  else
    match truth? text with
    | some b => some (.bool b)
    | none =>
      let other := if isPaddedRow cs then Value.string text else (real? cs).getD (.string text)
      match integer? cs with
      | some n => if fitsDoubleWord n then wordValue? n else some other
      | none => some other

/-- The value of a scalar without a tag. -/
def value? (text : String) (plain : Bool) : Option Value :=
  if plain then plainValue? text else some (.string text)

/-- The value of a scalar under a tag that is not kept.  A tag of the language asks for a kind of
value, which the scalar must name however it is written. -/
def taggedValue? (tag : TagText) (text : String) (plain : Bool) : Option Value :=
  if tag = standardStart ++ TagText.ofString "bool" then (truth? text).map .bool
  else if tag = standardStart ++ TagText.ofString "int" then (integer? text.toList).bind wordValue?
  else if tag = standardStart ++ TagText.ofString "float" then real? text.toList
  else if tag = standardStart ++ TagText.ofString "null" then
    if isNull text then some .null else none
  else if tag.head? = some (some '!') then value? text plain
  else some (.string text)

end Scalar

/-- The name that is kept of a tag: it begins with a mark, which does not count unless nothing
follows, and it is a text. -/
def TagText.name? : TagText → Option String
  | [some '!'] => some "!"
  | some '!' :: rest => (rest.mapM id).map String.ofList
  | _ => none

/-! ## Nodes -/

namespace Value

/-- A value beside the name that is kept of its node's tag. -/
def withTag (tag : Option TagText) (v : Value) : Value :=
  match tag.bind TagText.name? with
  | some name => .tagged name v
  | none => v

/-- The value of a scalar. -/
def ofScalar? (tag : Option TagText) (text : String) (plain : Bool) : Option Value :=
  match tag with
  | none => Scalar.value? text plain
  | some t =>
    match t.name? with
    | some name => (Scalar.value? text plain).map (.tagged name)
    | none => Scalar.taggedValue? t text plain

mutual
/-- The value of a node. -/
def ofNode? : Node → Option Value
  | .scalar tag text plain => ofScalar? tag text plain
  | .sequence tag entries => (ofNodes? entries).map fun vs => withTag tag (.sequence vs)
  | .mapping tag entries =>
    match ofPairs? entries with
    | some pairs => if keysDiffer pairs then some (withTag tag (.mapping pairs)) else none
    | none => none

/-- The values of the entries of a sequence. -/
def ofNodes? : List Node → Option (List Value)
  | [] => some []
  | n :: rest =>
    match ofNode? n, ofNodes? rest with
    | some v, some vs => some (v :: vs)
    | _, _ => none

/-- The keys and values of a mapping. -/
def ofPairs? : List (Node × Node) → Option (List (Value × Value))
  | [] => some []
  | (k, v) :: rest =>
    match ofNode? k, ofNode? v, ofPairs? rest with
    | some k, some v, some pairs => some ((k, v) :: pairs)
    | _, _, _ => none
end

/-- The value of a text's only document. -/
def parse? (text : String) : Option Value :=
  ((Token.ofText? text).bind Node.ofTokens?).bind ofNode?

/-! ## Source trees -/

/-- A value without the tags in front of it. -/
def untagged : Value → Value
  | tagged _ v => v.untagged
  | v => v

/-- The name of the member under a key. -/
def memberName : Value → MemberName
  | string name => .text name
  | number (.int n _) => if 0 ≤ n then .index n.toNat else .other
  | tagged _ _ => .unreadable
  | _ => .other

mutual
/-- A value as a source tree.  Where the kind of a value is open, a tag has no meaning. -/
def toSource : Value → Source
  | null => .null
  | bool b => .bool b
  | number n => .number n
  | infinite _ => .notFinite
  | notANumber => .notFinite
  | string text => .string text
  | sequence entries => .array (allToSource entries)
  | mapping entries => .object (pairsToSource entries)
  | tagged _ _ => .unreadable

/-- The entries of a sequence as source trees. -/
def allToSource : List Value → List Source
  | [] => []
  | v :: rest => v.toSource :: allToSource rest

/-- The pairs of a mapping as members. -/
def pairsToSource : List (Value × Value) → List (MemberName × Source)
  | [] => []
  | (k, v) :: rest => (k.memberName, v.toSource) :: pairsToSource rest
end

end Value

end PipelineEditor.Yaml
