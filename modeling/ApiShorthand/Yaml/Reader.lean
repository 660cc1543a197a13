import ApiShorthand.Yaml.Scalar
import ApiShorthand.Yaml.Node.Reader
import ApiShorthand.Yaml.Token.Scanner

/-!
# Reading YAML

`Yaml.read` reads a text of at most one document as a JSON value. Keys are texts, as they are
written; a repeated key keeps its first place and its last value. Tags other than those of the core
schema are refused, and so are texts that nest or multiply beyond measure.
-/

namespace ApiShorthand.Yaml

/-- A document that was read, with what its aliases stand for. -/
structure Document where
  /-- The node that is the document. -/
  root : Node
  /-- The nodes with anchors, the last one first. -/
  anchored : List (Nat × Node)

namespace Document

/-- The document of a node. -/
def ofNode (root : Node) : Document where
  root := root
  anchored := root.anchored.reverse

/-- How many aliases may be followed in all. -/
def maxSteps (document : Document) : Nat :=
  100 * document.root.size

/-- How deeply collections may be nested. -/
def maxDepth : Nat := 128

/-- A computation that may follow a number of aliases. -/
abbrev Reading (α : Type) := StateT Nat (Except Fault) α

/-- The node that a node stands for: itself, unless it is an alias. -/
def follow (document : Document) : Node → Reading Node
  | .reference anchor => do
    match ← get with
    | 0 => throw .tooManyAliases
    | left + 1 =>
      set left
      match document.anchored.lookup anchor with
      | some node => return node
      | none => throw .unknownAnchor
  | node => return node

/-! ### Scalars -/

/-- Whether a tag belongs to a text of its own, and so has no meaning here. -/
def isLocalTag : List UInt8 → Bool
  | [] => false
  | first :: rest => first == 33 && (Text.ofOctets? rest).isSome

/-- A tag must not be local. -/
def checkTag (properties : Properties) : Except Fault Unit :=
  match properties.tag with
  | some tag => if isLocalTag tag then .error .unknownTag else .ok ()
  | none => .ok ()

/-- The full tag with a name in the core schema. -/
def coreTag (name : String) : List UInt8 :=
  Text.octetsOf ("tag:yaml.org,2002:" ++ name).toList

/-- The meaning that a tag demands of a scalar; any tag that is not of the core schema makes it a
text. -/
def taggedMeaning (tag : List UInt8) (text : List Char) : Except Fault Meaning :=
  let orBad (meaning? : Option Meaning) : Except Fault Meaning :=
    match meaning? with
    | some meaning => .ok meaning
    | none => .error .badScalar
  if tag = coreTag "bool" then orBad ((Meaning.boolOf? text).map .bool)
  else if tag = coreTag "int" then orBad ((Meaning.intOf? text).map .int)
  else if tag = coreTag "float" then orBad ((Meaning.floatOf? text).map .float)
  else if tag = coreTag "null" then
    if Meaning.isNullWord text then .ok .null else .error .badScalar
  else .ok .text

/-- The value of a scalar. -/
def scalarValue (properties : Properties) (text : List Char) (plain : Bool) :
    Except Fault Json := do
  checkTag properties
  match properties.tag with
  | some tag =>
    if tag.head? = some 33 && plain then (Meaning.ofChars text).value text
    else (← taggedMeaning tag text).value text
  | none => if plain then (Meaning.ofChars text).value text else Meaning.text.value text

/-! ### Values -/

/-- The key that a node stands for. -/
def key (document : Document) (node : Node) : Reading String := do
  match ← document.follow node with
  | .scalar _ text _ => return String.ofList text
  | _ => throw .compoundKey

/-- The value of a node that may hold collections nested to a depth. -/
def value (document : Document) : (depth : Nat) → Node → Reading Json
  | 0, node => do
    match ← document.follow node with
    | .scalar properties text plain => scalarValue properties text plain
    | _ => throw .tooDeep
  | depth + 1, node => do
    match ← document.follow node with
    | .scalar properties text plain => scalarValue properties text plain
    | .sequence properties items =>
      checkTag properties
      return .array (← items.mapM (document.value depth))
    | .mapping properties entries =>
      checkTag properties
      let entries ← entries.mapM fun (keyNode, valueNode) => do
        let key ← document.key keyNode
        return (key, ← document.value depth valueNode)
      return .object (Table.ofList entries)
    | .reference _ => throw .unknownAnchor

/-- The value of a document. -/
def toJson (document : Document) : Except Fault Json := do
  let (value, _) ← (document.value maxDepth document.root).run document.maxSteps
  return value

end Document

/-- The value of a text, which is null if it holds no document. -/
def read (text : String) : Except Fault Json := do
  match ← Node.ofTokens? (← Token.ofSpots (← Spot.ofChars text.toList)) with
  | some node => (Document.ofNode node).toJson
  | none => return .null

end ApiShorthand.Yaml
