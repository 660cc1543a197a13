import ApiShorthand.Table

/-!
# JSON values

The values of documents and headers. The entries of an object stand in order; a reader puts them
there through `Table.insert`, so that a repeated key keeps its first place and its last value.
-/

namespace ApiShorthand

/-- A JSON value. -/
inductive Json where
  /-- The value `null`. -/
  | null
  /-- A truth value. -/
  | bool (value : Bool)
  /-- An integer, written without a point or an exponent. -/
  | int (value : Int)
  /-- A finite binary floating-point number. -/
  | float (value : Float)
  /-- A text. -/
  | string (value : String)
  /-- A list of values. -/
  | array (items : List Json)
  /-- Values under keys, in order. -/
  | object (entries : List (String × Json))
deriving Inhabited

namespace Json

/-- The least integer that is kept as an integer. -/
def minInt : Int := -9223372036854775808

/-- The greatest integer that is kept as an integer. -/
def maxInt : Int := 18446744073709551615

/-- A floating-point number as a value: `null` if it is not finite. -/
def ofFloat (x : Float) : Json :=
  if x.isFinite then float x else null

end Json

end ApiShorthand
