import ApiShorthand.Yaml.Style
import ApiShorthand.Decimal.Notation

/-!
# Printing YAML

`Yaml.print` writes a JSON value as a YAML text in block style. A sequence under a key stands at the
column of the key; an item, a key behind a question mark and a value behind a colon of its own start
on the line of their indicator. Every text that a collection is made of ends with a line break.
-/

namespace ApiShorthand.Yaml.Printer

/-- The blanks up to a column. -/
def spaces (column : Nat) : List Char :=
  List.replicate column ' '

/-! ### Scalars -/

/-- The letter of an escape, if a character has one. -/
def escapeLetter? : Char → Option Char
  | '\x00' => some '0'
  | '\x07' => some 'a'
  | '\x08' => some 'b'
  | '\t' => some 't'
  | '\n' => some 'n'
  | '\x0b' => some 'v'
  | '\x0c' => some 'f'
  | '\r' => some 'r'
  | '\x1b' => some 'e'
  | '"' => some '"'
  | '\\' => some '\\'
  | '\x85' => some 'N'
  | '\u2028' => some 'L'
  | '\u2029' => some 'P'
  | _ => none

/-- A hexadecimal digit in upper case. -/
def hexDigit (n : Nat) : Char :=
  if n < 10 then Char.ofNat (48 + n) else Char.ofNat (55 + n)

/-- The last `count` hexadecimal digits of a number. -/
def hexDigits : (count : Nat) → Nat → List Char
  | 0, _ => []
  | count + 1, n => hexDigits count (n / 16) ++ [hexDigit (n % 16)]

/-- The code of a character behind a backslash. -/
def escapeCode (c : Char) : List Char :=
  if c.toNat ≤ 0xFF then 'x' :: hexDigits 2 c.toNat
  else if c.toNat ≤ 0xFFFF then 'u' :: hexDigits 4 c.toNat
  else 'U' :: hexDigits 8 c.toNat

/-- A character in double quotes. -/
def doubleChar (c : Char) : List Char :=
  match escapeLetter? c with
  | some letter => ['\\', letter]
  | none => if isPrintable c then [c] else '\\' :: escapeCode c

/-- The text in single quotes with later lines at a column; `atStart` tells whether one starts
here. -/
def singleChars (column : Nat) : (atStart : Bool) → List Char → List Char
  | atStart, [] => if atStart then spaces column else []
  | atStart, c :: rest =>
    if isBreak c then c :: singleChars column true rest
    else
      (if atStart then spaces column else []) ++
        (if c == '\'' then ['\'', '\''] else [c]) ++ singleChars column false rest

/-- The lines of a literal text at a column; `atStart` tells whether one starts here. Lines without
characters have no blanks. -/
def literalChars (column : Nat) : (atStart : Bool) → List Char → List Char
  | _, [] => []
  | atStart, c :: rest =>
    if isBreak c then c :: literalChars column true rest
    else (if atStart then spaces column else []) ++ c :: literalChars column false rest

/-- The hint that tells the indentation of a literal text, where its first line does not show it. -/
def indentHint (text : List Char) : List Char :=
  if text.head?.any (fun c => c == ' ' || isBreak c) then ['2'] else []

/-- The hint that tells how many line breaks a literal text ends with: none, or more than one. -/
def chompHint (text : List Char) : List Char :=
  match text.reverse with
  | [] => ['-']
  | last :: before =>
    if !isBreak last then ['-']
    else
      match before with
      | [] => ['+']
      | c :: _ => if isBreak c then ['+'] else []

/-- A text whose later lines, if it has any, start at a column. -/
def textChars (column : Nat) (text : List Char) : List Char :=
  match Style.ofChars text with
  | .plain => text
  | .single => '\'' :: (singleChars column false text ++ ['\''])
  | .double => '"' :: (text.flatMap doubleChar ++ ['"'])
  | .literal =>
    '|' :: (indentHint text ++ chompHint text ++ '\n' :: literalChars column true text)

/-- A text that ends with a line break. -/
def closed (text : List Char) : List Char :=
  if text.getLast?.any isBreak then text else text ++ ['\n']

/-! ### Places -/

/-- Where a value is written. -/
inductive Place where
  /-- Behind an indicator, or at the start of the text, at a column. -/
  | inline (column : Nat)
  /-- Behind the colon of a key at a column. -/
  | underKey (column : Nat)
deriving DecidableEq, Repr

namespace Place

/-- The column of later lines of a text. -/
def textColumn : Place → Nat
  | inline column => column
  | underKey column => column + 2

/-- The column of the dashes of a sequence. -/
def itemColumn : Place → Nat
  | inline column => column
  | underKey column => column

/-- The column of the keys of a mapping. -/
def keyColumn : Place → Nat
  | inline column => column
  | underKey column => column + 2

/-- What stands in front of a value on one line. -/
def lead : Place → List Char
  | inline _ => []
  | underKey _ => [' ']

/-- What stands in front of the first line of a collection at a column. -/
def opening (column : Nat) : Place → List Char
  | inline _ => []
  | underKey _ => '\n' :: spaces column

end Place

/-! ### Keys -/

/-- Whether a key is written without an indicator: on one line, and with at most 128 octets. -/
def isSimpleKey (key : String) : Bool :=
  !key.toList.any isBreak && key.utf8ByteSize ≤ 128

/-- A key at a column and the colon behind it. -/
def keyChars (column : Nat) (key : String) : List Char :=
  if isSimpleKey key then textChars (column + 2) key.toList ++ [':']
  else
    '?' :: ' ' :: (closed (textChars (column + 2) key.toList) ++ spaces column ++ [':', ' '])

/-- The place of the value of a key at a column. -/
def valuePlace (column : Nat) (key : String) : Place :=
  if isSimpleKey key then .underKey column else .inline (column + 2)

/-! ### Values -/

mutual

/-- A value at a place, with a line break at its end. -/
def valueChars (place : Place) : Json → List Char
  | .null => place.lead ++ ['n', 'u', 'l', 'l', '\n']
  | .bool true => place.lead ++ ['t', 'r', 'u', 'e', '\n']
  | .bool false => place.lead ++ ['f', 'a', 'l', 's', 'e', '\n']
  | .int value => place.lead ++ Decimal.intDigits value ++ ['\n']
  | .float value => place.lead ++ Decimal.yamlNotation.write value ++ ['\n']
  | .string text => place.lead ++ closed (textChars place.textColumn text.toList)
  | .array [] => place.lead ++ ['[', ']', '\n']
  | .array (item :: items) =>
    place.opening place.itemColumn ++ '-' :: ' ' ::
      (valueChars (.inline (place.itemColumn + 2)) item ++ itemsChars place.itemColumn items)
  | .object [] => place.lead ++ ['{', '}', '\n']
  | .object ((key, value) :: entries) =>
    place.opening place.keyColumn ++ keyChars place.keyColumn key ++
      (valueChars (valuePlace place.keyColumn key) value ++ entriesChars place.keyColumn entries)

/-- The later items of a sequence at a column. -/
def itemsChars (column : Nat) : List Json → List Char
  | [] => []
  | item :: items =>
    spaces column ++ '-' :: ' ' ::
      (valueChars (.inline (column + 2)) item ++ itemsChars column items)

/-- The later entries of a mapping at a column. -/
def entriesChars (column : Nat) : List (String × Json) → List Char
  | [] => []
  | (key, value) :: entries =>
    spaces column ++ keyChars column key ++
      (valueChars (valuePlace column key) value ++ entriesChars column entries)

end

/-- The text of a value. A text of several lines stands as deep as under a key. -/
def chars : Json → List Char
  | .string text => closed (textChars 2 text.toList)
  | value => valueChars (.inline 0) value

end Printer

/-- The YAML text of a value. -/
def print (value : Json) : String :=
  String.ofList (Printer.chars value)

end ApiShorthand.Yaml
