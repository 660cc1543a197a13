import ApiShorthand.Yaml.Token

/-!
# Nodes

The tree of a YAML document. Its aliases are resolved to numbers of anchors. A number can be given
twice, when an anchor is defined again; an alias then stands for the node that received the number
last.
-/

namespace ApiShorthand.Yaml

/-- What stands in front of the content of a node. -/
structure Properties where
  /-- The number of the anchor. -/
  anchor : Option Nat
  /-- The octets of the full tag. -/
  tag : Option (List UInt8)
deriving DecidableEq, Repr

/-- A node of a YAML document. -/
inductive Node where
  /-- A text, and whether it is written without quotes or indicators. -/
  | scalar (properties : Properties) (text : List Char) (plain : Bool)
  /-- A list of nodes. -/
  | sequence (properties : Properties) (items : List Node)
  /-- A list of keys with their values. -/
  | mapping (properties : Properties) (entries : List (Node × Node))
  /-- A reference to the anchor with a number. -/
  | reference (anchor : Nat)
deriving Inhabited

namespace Node

/-- The properties of a node without any. -/
def noProperties : Properties := ⟨none, none⟩

/-- The node that stands where nothing is written. -/
def empty : Node := scalar noProperties [] true

mutual

/-- The nodes with an anchor, each under its number, in the order in which they start. -/
def anchored : Node → List (Nat × Node)
  | scalar properties text plain => ownAnchor properties (scalar properties text plain)
  | sequence properties items =>
    ownAnchor properties (sequence properties items) ++ anchoredItems items
  | mapping properties entries =>
    ownAnchor properties (mapping properties entries) ++ anchoredEntries entries
  | reference _ => []

/-- The nodes with an anchor among items. -/
def anchoredItems : List Node → List (Nat × Node)
  | [] => []
  | item :: items => anchored item ++ anchoredItems items

/-- The nodes with an anchor among entries. -/
def anchoredEntries : List (Node × Node) → List (Nat × Node)
  | [] => []
  | (key, value) :: entries => anchored key ++ anchored value ++ anchoredEntries entries

/-- A node under the number of its anchor, if it has one. -/
def ownAnchor (properties : Properties) (node : Node) : List (Nat × Node) :=
  match properties.anchor with
  | some anchor => [(anchor, node)]
  | none => []

end

mutual

/-- The size of a node: one for a scalar or an alias, two for a collection besides its content. -/
def size : Node → Nat
  | scalar _ _ _ => 1
  | sequence _ items => 2 + sizeItems items
  | mapping _ entries => 2 + sizeEntries entries
  | reference _ => 1

/-- The size of items. -/
def sizeItems : List Node → Nat
  | [] => 0
  | item :: items => size item + sizeItems items

/-- The size of entries. -/
def sizeEntries : List (Node × Node) → Nat
  | [] => 0
  | (key, value) :: entries => size key + size value + sizeEntries entries

end

end Node

end ApiShorthand.Yaml
