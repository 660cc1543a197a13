import ApiShorthand.Yaml.Spot

/-!
# Tokens

The tokens of a YAML text. The indentation of block collections is already turned into tokens that
open and close them.
-/

namespace ApiShorthand.Yaml

/-- A tag as it is written: a handle, which is empty for a full tag, and the octets behind it. -/
structure TagText where
  /-- The handle. -/
  handle : List Char
  /-- The octets behind the handle. -/
  suffix : List UInt8
deriving DecidableEq, Repr

/-- A token of a YAML text. -/
inductive Token where
  /-- A directive that gives the version. -/
  | version (major minor : Nat)
  /-- A directive that declares a tag handle. -/
  | tagHandle (handle : List Char) (start : List UInt8)
  /-- The mark in front of a document. -/
  | documentStart
  /-- The mark behind a document. -/
  | documentEnd
  /-- The start of a block sequence. -/
  | blockSequence
  /-- The start of a block mapping. -/
  | blockMapping
  /-- The end of a block collection. -/
  | blockEnd
  /-- The opening bracket of a flow sequence. -/
  | openSequence
  /-- The closing bracket of a flow sequence. -/
  | closeSequence
  /-- The opening brace of a flow mapping. -/
  | openMapping
  /-- The closing brace of a flow mapping. -/
  | closeMapping
  /-- The dash of an item. -/
  | item
  /-- The comma of a flow collection. -/
  | comma
  /-- The place in front of a key. -/
  | key
  /-- The place in front of a value. -/
  | value
  /-- A reference to an anchor. -/
  | reference (name : List Char)
  /-- The name of the node that follows. -/
  | anchor (name : List Char)
  /-- The tag of the node that follows. -/
  | tag (text : TagText)
  /-- A scalar, and whether it is written without quotes or indicators. -/
  | scalar (text : List Char) (plain : Bool)
deriving DecidableEq, Repr

end ApiShorthand.Yaml
