import ApiShorthand.Text.Blank

/-!
# Identifiers

The ASCII classes from which names are made, and taking a name off the front of a text.
-/

namespace ApiShorthand.Text

/-- Whether a character is an ASCII lower-case letter. -/
def isLower (c : Char) : Bool :=
  'a' ≤ c && c ≤ 'z'

/-- Whether a character is an ASCII upper-case letter. -/
def isUpper (c : Char) : Bool :=
  'A' ≤ c && c ≤ 'Z'

/-- Whether a character is an ASCII digit. -/
def isDigit (c : Char) : Bool :=
  '0' ≤ c && c ≤ '9'

/-- Whether a character is a hexadecimal digit. -/
def isHexDigit (c : Char) : Bool :=
  isDigit c || ('a' ≤ c && c ≤ 'f') || ('A' ≤ c && c ≤ 'F')

/-- The value of a hexadecimal digit. -/
def hexValue? (c : Char) : Option Nat :=
  if isDigit c then some (c.toNat - 48)
  else if 'a' ≤ c && c ≤ 'f' then some (c.toNat - 87)
  else if 'A' ≤ c && c ≤ 'F' then some (c.toNat - 55)
  else none

/-- Whether an identifier can start with a character: an ASCII letter or an underscore. -/
def isNameStart (c : Char) : Bool :=
  isLower c || isUpper c || c == '_'

/-- Whether an identifier can go on with a character: an ASCII letter, digit or underscore. -/
def isNamePart (c : Char) : Bool :=
  isNameStart c || isDigit c

/-- Whether a word consists of a character of the class `start` and then of name characters. -/
def isWordFrom (start : Char → Bool) : List Char → Bool
  | [] => false
  | c :: rest => start c && rest.all isNamePart

/-- The longest identifier at the start of a text and the text behind it. -/
def takeName? : List Char → Option (List Char × List Char)
  | [] => none
  | c :: rest =>
    if isNameStart c then some (c :: rest.takeWhile isNamePart, rest.dropWhile isNamePart)
    else none

/-! ### Laws -/

/-- The identifier that is taken and the text behind it make up the text. -/
theorem append_of_takeName? {text name rest : List Char} (h : takeName? text = some (name, rest)) :
    name ++ rest = text := by
  cases text with
  | nil => simp [takeName?] at h
  | cons c tail =>
    simp only [takeName?] at h
    split at h
    · simp only [Option.some.injEq, Prod.mk.injEq] at h
      rw [← h.1, ← h.2, List.cons_append, List.takeWhile_append_dropWhile]
    · simp at h

end ApiShorthand.Text
