import ApiShorthand.Yaml.Fault
import ApiShorthand.Decimal.Nearest
import ApiShorthand.Json.Basic
import ApiShorthand.Text.Identifier

/-!
# The meaning of scalars

What a scalar without quotes stands for: `Meaning.ofChars` decides between nothing, a truth value,
an integer, a float and a text. The reader gives such a scalar its meaning, and the printer puts
quotes around a text that would have another one.
-/

namespace ApiShorthand.Yaml

/-- What a scalar stands for. -/
inductive Meaning where
  /-- Nothing. -/
  | null
  /-- A truth value. -/
  | bool (value : Bool)
  /-- An integer. -/
  | int (value : Int)
  /-- A float, which may be infinite or no number. -/
  | float (value : Float)
  /-- The text itself. -/
  | text

namespace Meaning

/-! ### Words -/

/-- Whether a text is a word for nothing. -/
def isNullWord (text : List Char) : Bool :=
  ["null", "Null", "NULL", "~"].any fun word => word.toList == text

/-- The truth value that a text is a word for. -/
def boolOf? (text : List Char) : Option Bool :=
  if ["true", "True", "TRUE"].any fun word => word.toList == text then some true
  else if ["false", "False", "FALSE"].any fun word => word.toList == text then some false
  else none

/-! ### Integers -/

/-- The value of a text that consists of one or more digits of a base up to sixteen. -/
def digitsOf? (base : Nat) : List Char → Option Nat
  | [] => none
  | digits =>
    digits.foldlM (fun n c =>
      (Text.hexValue? c).bind fun digit => if digit < base then some (base * n + digit) else none) 0

/-- Whether a text is an integer with a zero too many at its start, which makes it a text. -/
def hasExtraZero (text : List Char) : Bool :=
  let unsigned :=
    match text with
    | '-' :: rest => rest
    | '+' :: rest => rest
    | _ => text
  match unsigned with
  | '0' :: c :: rest => (c :: rest).all Text.isDigit
  | _ => false

/-- The size of an integer without its sign, in base ten, or behind a mark in base sixteen, eight
or two. -/
def sizeOf? : List Char → Option Nat
  | '0' :: 'x' :: digits => digitsOf? 16 digits
  | '0' :: 'o' :: digits => digitsOf? 8 digits
  | '0' :: 'b' :: digits => digitsOf? 2 digits
  | digits => digitsOf? 10 digits

/-- The integer that a text stands for. No integer has more than 128 bits. -/
def intOf? (text : List Char) : Option Int :=
  if hasExtraZero text then none
  else
    match text with
    | '-' :: digits => do
      let size ← sizeOf? digits
      if size ≤ Nat.pow 2 127 then some (-(size : Int)) else none
    | '+' :: digits => do
      let size ← sizeOf? digits
      if size < Nat.pow 2 128 then some size else none
    | digits => do
      let size ← sizeOf? digits
      if size < Nat.pow 2 128 then some size else none

/-! ### Floats -/

/-- The exponent at the end of a decimal; it is zero if nothing is written. -/
def exponentOf? : List Char → Option Int
  | [] => some 0
  | c :: rest =>
    if c == 'e' || c == 'E' then
      match rest with
      | '-' :: digits => (digitsOf? 10 digits).map fun n => -(n : Int)
      | '+' :: digits => (digitsOf? 10 digits).map fun n => (n : Int)
      | digits => (digitsOf? 10 digits).map fun n => (n : Int)
    else none

/-- The decimal that a text without a sign stands for. A digit stands on at least one side of the
point. -/
def decimalOf? (text : List Char) : Option Decimal := do
  let whole := text.takeWhile Text.isDigit
  let behind := text.dropWhile Text.isDigit
  let (fraction, rest) :=
    match behind with
    | '.' :: rest => (rest.takeWhile Text.isDigit, rest.dropWhile Text.isDigit)
    | _ => ([], behind)
  if whole.isEmpty && fraction.isEmpty then none
  else
    let exponent ← exponentOf? rest
    some ⟨Decimal.ofDigits (whole ++ fraction), exponent - fraction.length⟩

/-- The finite float that a text without a sign stands for. -/
def finiteOf? (text : List Char) : Option Float := do
  let size := (← decimalOf? text).nearest
  if size.isFinite then some size else none

/-- Whether a text is a word for infinity. -/
def isInfinityWord (text : List Char) : Bool :=
  [".inf", ".Inf", ".INF"].any fun word => word.toList == text

/-- Whether a text is a word for no number. -/
def isNanWord (text : List Char) : Bool :=
  [".nan", ".NaN", ".NAN"].any fun word => word.toList == text

/-- The float that a text stands for. -/
def floatOf? (text : List Char) : Option Float :=
  if isNanWord text then some (0.0 / 0.0)
  else
    match text with
    | '-' :: size => if isInfinityWord size then some (-1.0 / 0.0) else (finiteOf? size).map (- ·)
    | '+' :: size => if isInfinityWord size then some (1.0 / 0.0) else finiteOf? size
    | size => if isInfinityWord size then some (1.0 / 0.0) else finiteOf? size

/-! ### The meaning of a text -/

/-- The meaning of a scalar that is written without quotes. -/
def ofChars (text : List Char) : Meaning :=
  if text.isEmpty || isNullWord text then null
  else
    match boolOf? text with
    | some value => bool value
    | none =>
      match intOf? text with
      | some value => int value
      | none =>
        if hasExtraZero text then .text
        else
          match floatOf? text with
          | some value => float value
          | none => .text

/-- The value of an integer, which has to be in range. -/
def intValue (value : Int) : Except Fault Json :=
  if Json.minInt ≤ value ∧ value ≤ Json.maxInt then .ok (.int value) else .error .badScalar

/-- The value of a scalar with a meaning. -/
def value (text : List Char) : Meaning → Except Fault Json
  | null => .ok .null
  | bool value => .ok (.bool value)
  | int value => intValue value
  | float value => .ok (.ofFloat value)
  | .text => .ok (.string (String.ofList text))

end Meaning

end ApiShorthand.Yaml
