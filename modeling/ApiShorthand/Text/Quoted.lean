import ApiShorthand.Text.Printable

/-!
# Quoted text

The written form of a text inside an error message: between double quotes, with a letter escape
for the six characters that have one, and `\u{...}` with the code point in lower-case hexadecimal
for every other character that is not printable or is drawn on its neighbour.
-/

namespace ApiShorthand.Text

/-- The letter that stands for a character behind a backslash, if it has one. -/
def escapeLetter? : Char → Option Char
  | '\x00' => some '0'
  | '\t' => some 't'
  | '\r' => some 'r'
  | '\n' => some 'n'
  | '"' => some '"'
  | '\\' => some '\\'
  | _ => none

/-- The written form of one character. -/
def escape (c : Char) : List Char :=
  match escapeLetter? c with
  | some letter => ['\\', letter]
  | none =>
    if isGraphemeExtend c || !isPrintable c then
      '\\' :: 'u' :: '{' :: (Nat.toDigits 16 c.toNat ++ ['}'])
    else [c]

/-- The written form of a text. -/
def quoteChars (text : List Char) : List Char :=
  '"' :: (text.flatMap escape ++ ['"'])

/-- The written form of a text. -/
def quote (text : String) : String :=
  String.ofList (quoteChars text.toList)

end ApiShorthand.Text
