import ApiShorthand.Json.Basic
import ApiShorthand.Decimal.Notation

/-!
# Printing JSON

Two forms of one value: the compact form without any white space, and the indented form with two
spaces a level, in which empty arrays and objects stay on their line.
-/

namespace ApiShorthand.Json

/-! ### Scalars -/

/-- A hexadecimal digit in lower case. -/
def hexDigit (n : Nat) : Char :=
  if n < 10 then Char.ofNat (48 + n) else Char.ofNat (87 + n)

/-- The letter that stands for a character behind a backslash, if it has one. -/
def escapeLetter? : Char → Option Char
  | '"' => some '"'
  | '\\' => some '\\'
  | '\x08' => some 'b'
  | '\x0c' => some 'f'
  | '\n' => some 'n'
  | '\r' => some 'r'
  | '\t' => some 't'
  | _ => none

/-- The written form of one character of a string: only quotes, backslashes and the characters
before the space are escaped. -/
def escape (c : Char) : List Char :=
  match escapeLetter? c with
  | some letter => ['\\', letter]
  | none =>
    if c.toNat < 0x20 then
      ['\\', 'u', '0', '0', hexDigit (c.toNat / 16), hexDigit (c.toNat % 16)]
    else [c]

/-- The written form of a string. -/
def stringChars (text : String) : List Char :=
  '"' :: (text.toList.flatMap escape ++ ['"'])

/-! ### The compact form -/

mutual

/-- The compact form of a value. -/
def compactChars : Json → List Char
  | null => ['n', 'u', 'l', 'l']
  | bool true => ['t', 'r', 'u', 'e']
  | bool false => ['f', 'a', 'l', 's', 'e']
  | int value => Decimal.intDigits value
  | float value => Decimal.jsonNotation.write value
  | string text => stringChars text
  | array [] => ['[', ']']
  | array (item :: items) => '[' :: (compactChars item ++ compactItems items)
  | object [] => ['{', '}']
  | object ((key, value) :: entries) =>
    '{' :: (stringChars key ++ ':' :: (compactChars value ++ compactEntries entries))

/-- The later items of an array and its closing bracket. -/
def compactItems : List Json → List Char
  | [] => [']']
  | item :: items => ',' :: (compactChars item ++ compactItems items)

/-- The later entries of an object and its closing brace. -/
def compactEntries : List (String × Json) → List Char
  | [] => ['}']
  | (key, value) :: entries =>
    ',' :: (stringChars key ++ ':' :: (compactChars value ++ compactEntries entries))

end

/-- The compact form of a value. -/
def compact (value : Json) : String :=
  String.ofList (compactChars value)

/-! ### The indented form -/

/-- A line end and the indentation of a level. -/
def newline (level : Nat) : List Char :=
  '\n' :: List.replicate (2 * level) ' '

mutual

/-- The indented form of a value that stands at a level. -/
def indentedChars (level : Nat) : Json → List Char
  | null => ['n', 'u', 'l', 'l']
  | bool true => ['t', 'r', 'u', 'e']
  | bool false => ['f', 'a', 'l', 's', 'e']
  | int value => Decimal.intDigits value
  | float value => Decimal.jsonNotation.write value
  | string text => stringChars text
  | array [] => ['[', ']']
  | array (item :: items) =>
    '[' :: (newline (level + 1) ++ indentedChars (level + 1) item ++ indentedItems level items)
  | object [] => ['{', '}']
  | object ((key, value) :: entries) =>
    '{' :: (newline (level + 1) ++ stringChars key ++ ':' :: ' ' ::
      (indentedChars (level + 1) value ++ indentedEntries level entries))

/-- The later items of an array at a level and its closing bracket. -/
def indentedItems (level : Nat) : List Json → List Char
  | [] => newline level ++ [']']
  | item :: items =>
    ',' :: (newline (level + 1) ++ indentedChars (level + 1) item ++ indentedItems level items)

/-- The later entries of an object at a level and its closing brace. -/
def indentedEntries (level : Nat) : List (String × Json) → List Char
  | [] => newline level ++ ['}']
  | (key, value) :: entries =>
    ',' :: (newline (level + 1) ++ stringChars key ++ ':' :: ' ' ::
      (indentedChars (level + 1) value ++ indentedEntries level entries))

end

/-- The indented form of a value. -/
def indented (value : Json) : String :=
  String.ofList (indentedChars 0 value)

end ApiShorthand.Json
