import ApiShorthand.Json.Basic
import ApiShorthand.Decimal.Nearest
import ApiShorthand.Text.Identifier

/-!
# Reading JSON

`Json.ofString?` reads a JSON text by the grammar of JSON, without a limit on nesting. An integer
in range is kept exactly; every other number is a float, reached by one multiplication or division
of its leading digits by a power of ten. A repeated key keeps its first place and its last value.
-/

namespace ApiShorthand.Json

/-! ### White space -/

/-- Whether a character may stand between the tokens of a JSON text. -/
def isSpace (c : Char) : Bool :=
  c == ' ' || c == '\n' || c == '\t' || c == '\r'

/-- The text without the white space at its start. -/
def skipSpace (text : List Char) : List Char :=
  text.dropWhile isSpace

/-! ### Numbers -/

/-- A number as it is written. -/
structure Numeral where
  /-- Whether a minus sign stands in front. -/
  negative : Bool
  /-- The digits in front of the point. -/
  whole : List Char
  /-- The digits behind the point; empty if there is no point. -/
  fraction : List Char
  /-- The exponent, if there is one: whether it is negative, and its digits. -/
  exponent : Option (Bool × List Char)
deriving DecidableEq, Repr

namespace Numeral

/-- The digits at the start of a text, of which there has to be one, and the text behind them. -/
def takeDigits? (text : List Char) : Option (List Char × List Char) :=
  match text.takeWhile Text.isDigit with
  | [] => none
  | digits => some (digits, text.dropWhile Text.isDigit)

/-- The digits in front of the point: a zero alone, or digits of which the first is no zero. -/
def takeWhole? : List Char → Option (List Char × List Char)
  | '0' :: rest => some (['0'], rest)
  | text => takeDigits? text

/-- The digits behind a point, if a point comes next. -/
def takeFraction? : List Char → Option (List Char × List Char)
  | '.' :: rest => takeDigits? rest
  | text => some ([], text)

/-- The sign of an exponent and the text behind it. -/
def takeSign : List Char → Bool × List Char
  | '-' :: rest => (true, rest)
  | '+' :: rest => (false, rest)
  | text => (false, text)

/-- The exponent, if its letter comes next. -/
def takeExponent? : List Char → Option (Option (Bool × List Char) × List Char)
  | [] => some (none, [])
  | c :: rest =>
    if c == 'e' || c == 'E' then do
      let (negative, rest) := takeSign rest
      let (digits, rest) ← takeDigits? rest
      some (some (negative, digits), rest)
    else some (none, c :: rest)

/-- The number at the start of a text without its sign, and the text behind it. -/
def takeUnsigned? (negative : Bool) (text : List Char) : Option (Numeral × List Char) := do
  let (whole, rest) ← takeWhole? text
  let (fraction, rest) ← takeFraction? rest
  let (exponent, rest) ← takeExponent? rest
  some (⟨negative, whole, fraction, exponent⟩, rest)

/-- The number at the start of a text and the text behind it. -/
def take? : List Char → Option (Numeral × List Char)
  | '-' :: rest => takeUnsigned? true rest
  | text => takeUnsigned? false text

/-- Whether a number has neither a point nor an exponent. -/
def isWhole (n : Numeral) : Bool :=
  n.fraction.isEmpty && n.exponent.isNone

/-- Reads digits behind `n` for as long as the result is less than `2 ^ 64`: the result, and the
number of digits that were read. -/
def accumulate (n : Nat) : List Char → Nat × Nat
  | [] => (n, 0)
  | c :: rest =>
    let next := 10 * n + (c.toNat - 48)
    if next < Nat.pow 2 64 then
      let (result, count) := accumulate next rest
      (result, count + 1)
    else (n, 0)

/-- The value of the leading digits of a number as `digits * 10 ^ exponent`, before the exponent
that is written. Digits in front of the point that do not fit count as zeros, and those behind it
as nothing. -/
def leading (n : Numeral) : Decimal :=
  let (whole, used) := accumulate 0 n.whole
  let (digits, places) := accumulate whole n.fraction
  ⟨digits, (n.whole.length - used : Nat) - (places : Int)⟩

/-- The value of the exponent that is written. -/
def writtenExponent (n : Numeral) : Int :=
  match n.exponent with
  | none => 0
  | some (negative, digits) =>
    let size := Decimal.ofDigits digits
    if negative then -(size : Int) else size

/-- A power of ten as a float, correctly rounded. -/
def powerOfTen (exponent : Nat) : Float :=
  (⟨1, exponent⟩ : Decimal).nearest

/-- The product of a float and a power of ten, which is rounded after each of at most `steps`
multiplications or divisions; `none` if it is too large. No float power of ten lies beyond 308. -/
def scale? : Nat → Float → Int → Option Float
  | 0, x, _ => some x
  | steps + 1, x, exponent =>
    if exponent < -308 then
      if x == 0 then some x else scale? steps (x / powerOfTen 308) (exponent + 308)
    else if exponent < 0 then some (x / powerOfTen exponent.natAbs)
    else if exponent ≤ 308 then
      let product := x * powerOfTen exponent.toNat
      if product.isInf then none else some product
    else if x == 0 then some x
    else none

/-- The float that a number stands for, if it is not too large. Less than `2 ^ 64` is zero after
two divisions, so that three steps suffice. -/
def toFloat? (n : Numeral) : Option Float :=
  let leading := n.leading
  let size := scale? 3 leading.digits.toUInt64.toFloat (leading.exponent + n.writtenExponent)
  if n.negative then size.map (- ·) else size

/-- The integer that a number stands for, if it is written as one and is in range. Minus zero is
not an integer. -/
def toInt? (n : Numeral) : Option Int :=
  if n.isWhole then
    let size := Decimal.ofDigits n.whole
    if n.negative then
      if 0 < size ∧ minInt ≤ -(size : Int) then some (-(size : Int)) else none
    else if (size : Int) ≤ maxInt then some size
    else none
  else none

/-- The value of a number, unless it is too large. -/
def value? (n : Numeral) : Option Json :=
  match n.toInt? with
  | some i => some (int i)
  | none => n.toFloat?.map float

end Numeral

/-! ### Strings -/

/-- The value of four hexadecimal digits. -/
def hexValue4? (a b c d : Char) : Option Nat :=
  [a, b, c, d].foldlM (fun n digit => (Text.hexValue? digit).map (16 * n + ·)) 0

/-- The character of two surrogates. -/
def surrogatePair? (high low : Nat) : Option Char :=
  if 0xDC00 ≤ low && low ≤ 0xDFFF then
    some (Char.ofNat (0x10000 + 1024 * (high - 0xD800) + (low - 0xDC00)))
  else none

/-- The character that a letter behind a backslash stands for. -/
def unescapeLetter? : Char → Option Char
  | '"' => some '"'
  | '\\' => some '\\'
  | '/' => some '/'
  | 'b' => some '\x08'
  | 'f' => some '\x0c'
  | 'n' => some '\n'
  | 'r' => some '\r'
  | 't' => some '\t'
  | _ => none

/-- The characters of a string up to its closing quote, and the text behind that. -/
def readStringTail? : List Char → Option (List Char × List Char)
  | [] => none
  | '"' :: rest => some ([], rest)
  | '\\' :: 'u' :: a :: b :: c :: d :: rest => do
    let code ← hexValue4? a b c d
    if 0xD800 ≤ code && code ≤ 0xDBFF then
      match rest with
      | '\\' :: 'u' :: a :: b :: c :: d :: rest =>
        let c ← surrogatePair? code (← hexValue4? a b c d)
        let (tail, rest) ← readStringTail? rest
        some (c :: tail, rest)
      | _ => none
    else if 0xDC00 ≤ code && code ≤ 0xDFFF then none
    else
      let (tail, rest) ← readStringTail? rest
      some (Char.ofNat code :: tail, rest)
  | '\\' :: letter :: rest => do
    let c ← unescapeLetter? letter
    let (tail, rest) ← readStringTail? rest
    some (c :: tail, rest)
  | c :: rest =>
    if c.toNat < 0x20 || c == '\\' then none
    else do
      let (tail, rest) ← readStringTail? rest
      some (c :: tail, rest)

/-! ### Values -/

mutual

/-- The value at the start of a text and the text behind it. The fuel bounds the number of nested
calls; the length of the text suffices. -/
def readValue? : Nat → List Char → Option (Json × List Char)
  | 0, _ => none
  | fuel + 1, text =>
    match skipSpace text with
    | 'n' :: 'u' :: 'l' :: 'l' :: rest => some (null, rest)
    | 't' :: 'r' :: 'u' :: 'e' :: rest => some (bool true, rest)
    | 'f' :: 'a' :: 'l' :: 's' :: 'e' :: rest => some (bool false, rest)
    | '"' :: rest => do
      let (characters, rest) ← readStringTail? rest
      some (string (String.ofList characters), rest)
    | '[' :: rest =>
      match skipSpace rest with
      | ']' :: rest => some (array [], rest)
      | rest => do
        let (items, rest) ← readItems? fuel rest
        some (array items, rest)
    | '{' :: rest =>
      match skipSpace rest with
      | '}' :: rest => some (object [], rest)
      | rest => do
        let (entries, rest) ← readEntries? fuel rest
        some (object (Table.ofList entries), rest)
    | text => do
      let (numeral, rest) ← Numeral.take? text
      some (← numeral.value?, rest)

/-- The items of an array up to its closing bracket, of which there is at least one. -/
def readItems? : Nat → List Char → Option (List Json × List Char)
  | 0, _ => none
  | fuel + 1, text => do
    let (item, rest) ← readValue? fuel text
    match skipSpace rest with
    | ']' :: rest => some ([item], rest)
    | ',' :: rest =>
      let (items, rest) ← readItems? fuel rest
      some (item :: items, rest)
    | _ => none

/-- The entries of an object up to its closing brace, of which there is at least one. -/
def readEntries? : Nat → List Char → Option (List (String × Json) × List Char)
  | 0, _ => none
  | fuel + 1, text =>
    match skipSpace text with
    | '"' :: rest => do
      let (key, rest) ← readStringTail? rest
      match skipSpace rest with
      | ':' :: rest =>
        let (value, rest) ← readValue? fuel rest
        match skipSpace rest with
        | '}' :: rest => some ([(String.ofList key, value)], rest)
        | ',' :: rest =>
          let (entries, rest) ← readEntries? fuel rest
          some ((String.ofList key, value) :: entries, rest)
        | _ => none
      | _ => none
    | _ => none

end

/-- The value that a text stands for, if it is a JSON text. -/
def ofChars? (text : List Char) : Option Json := do
  let (value, rest) ← readValue? (2 * text.length + 1) text
  if (skipSpace rest).isEmpty then some value else none

/-- The value that a text stands for, if it is a JSON text. -/
def ofString? (text : String) : Option Json :=
  ofChars? text.toList

end ApiShorthand.Json
