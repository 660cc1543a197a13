import ApiShorthand.Json.Reader

/-!
# The grammar of JSON

What a text stands for as JSON, said as relations between texts and what they mean: numerals
(`NumeralText`), strings (`StringTail`), and values (`ValueText`), with white space around them and
without a limit on nesting. An object is the table of its entries, and a numeral means what
`Numeral.value?` makes of it; all else is the grammar alone.
-/

namespace ApiShorthand.Json

/-! ### White space -/

/-- A text between two tokens: spaces, tabs and line ends. -/
def IsGap (text : List Char) : Prop :=
  ∀ c ∈ text, c = ' ' ∨ c = '\t' ∨ c = '\n' ∨ c = '\r'

/-! ### Numerals -/

/-- A text of decimal digits that has one at least. -/
structure IsDigits (text : List Char) : Prop where
  /-- There is a digit. -/
  ne_nil : text ≠ []
  /-- All characters are digits. -/
  digits : ∀ c ∈ text, c.isDigit = true

/-- The digits in front of a point: none but a lone zero starts with a zero. -/
structure IsWhole (text : List Char) : Prop extends IsDigits text where
  /-- A zero in front stands alone. -/
  zero : text.head? = some '0' → text = ['0']

/-- The sign in front of a numeral. -/
inductive SignText : List Char → Bool → Prop where
  /-- No sign. -/
  | none : SignText [] false
  /-- A minus sign. -/
  | minus : SignText ['-'] true

/-- A point and the digits behind it, or nothing. -/
inductive FractionText : List Char → List Char → Prop where
  /-- No point. -/
  | none : FractionText [] []
  /-- A point with digits behind it. -/
  | point {digits : List Char} (hdigits : IsDigits digits) : FractionText ('.' :: digits) digits

/-- The sign of an exponent. -/
inductive ExponentSign : List Char → Bool → Prop where
  /-- No sign. -/
  | none : ExponentSign [] false
  /-- A plus sign. -/
  | plus : ExponentSign ['+'] false
  /-- A minus sign. -/
  | minus : ExponentSign ['-'] true

/-- An exponent with its letter, or nothing. -/
inductive ExponentText : List Char → Option (Bool × List Char) → Prop where
  /-- No exponent. -/
  | none : ExponentText [] none
  /-- A letter, perhaps a sign, and digits. -/
  | some {letter : Char} {sign digits : List Char} {negative : Bool}
    (hletter : letter = 'e' ∨ letter = 'E') (hsign : ExponentSign sign negative)
    (hdigits : IsDigits digits) :
    ExponentText (letter :: (sign ++ digits)) (some (negative, digits))

/-- A numeral and what it consists of. -/
inductive NumeralText : List Char → Numeral → Prop where
  /-- The parts of a numeral in a row. -/
  | mk {sign whole point fraction letter : List Char} {negative : Bool}
    {exponent : Option (Bool × List Char)} (hsign : SignText sign negative) (hwhole : IsWhole whole)
    (hfraction : FractionText point fraction) (hexponent : ExponentText letter exponent) :
    NumeralText (sign ++ (whole ++ (point ++ letter))) ⟨negative, whole, fraction, exponent⟩

/-! ### Strings -/

/-- The letters that stand behind a backslash, each with its character. -/
def escapes : List (Char × Char) :=
  [('"', '"'), ('\\', '\\'), ('/', '/'), ('b', '\x08'), ('f', '\x0c'), ('n', '\n'), ('r', '\r'),
    ('t', '\t')]

/-- A character and a written form of it. -/
inductive CharText : List Char → Char → Prop where
  /-- The character itself. -/
  | plain {c : Char} (hcontrol : 0x20 ≤ c.toNat) (hquote : c ≠ '"') (hbackslash : c ≠ '\\') :
    CharText [c] c
  /-- A backslash and a letter. -/
  | letter {letter c : Char} (h : (letter, c) ∈ escapes) : CharText ['\\', letter] c
  /-- Four digits that are no surrogate. -/
  | code {a b c d : Char} {n : Nat} (hdigits : hexValue4? a b c d = some n)
    (hscalar : n < 0xD800 ∨ 0xDFFF < n) : CharText ['\\', 'u', a, b, c, d] (Char.ofNat n)
  /-- Two surrogates. -/
  | pair {a b c d a' b' c' d' : Char} {high low : Nat} (hdigits : hexValue4? a b c d = some high)
    (hdigits' : hexValue4? a' b' c' d' = some low) (hhigh : 0xD800 ≤ high ∧ high ≤ 0xDBFF)
    (hlow : 0xDC00 ≤ low ∧ low ≤ 0xDFFF) :
    CharText ['\\', 'u', a, b, c, d, '\\', 'u', a', b', c', d']
      (Char.ofNat (0x10000 + 1024 * (high - 0xD800) + (low - 0xDC00)))

/-- The written characters of a string with its closing quote. -/
inductive StringTail : List Char → List Char → Prop where
  /-- The closing quote. -/
  | close : StringTail ['"'] []
  /-- A character and what follows it. -/
  | char {written rest characters : List Char} {c : Char} (hchar : CharText written c)
    (hrest : StringTail rest characters) : StringTail (written ++ rest) (c :: characters)

/-- A key of an object with its colon. -/
inductive KeyText : List Char → String → Prop where
  /-- A string between white space, and a colon. -/
  | mk {before tail after characters : List Char} (hbefore : IsGap before)
    (htail : StringTail tail characters) (hafter : IsGap after) :
    KeyText (before ++ '"' :: (tail ++ (after ++ [':']))) (String.ofList characters)

/-! ### Values -/

mutual

/-- A text, with white space around it or not, and the value that it stands for. -/
inductive ValueText : List Char → Json → Prop where
  /-- The value null. -/
  | null : ValueText ['n', 'u', 'l', 'l'] null
  /-- Truth. -/
  | true : ValueText ['t', 'r', 'u', 'e'] (bool true)
  /-- Falsehood. -/
  | false : ValueText ['f', 'a', 'l', 's', 'e'] (bool false)
  /-- A number. -/
  | number {text : List Char} {numeral : Numeral} {value : Json}
    (hnumeral : NumeralText text numeral) (hvalue : numeral.value? = some value) :
    ValueText text value
  /-- A text. -/
  | string {tail characters : List Char} (htail : StringTail tail characters) :
    ValueText ('"' :: tail) (string (String.ofList characters))
  /-- An array without items. -/
  | emptyArray {gap : List Char} (hgap : IsGap gap) : ValueText ('[' :: (gap ++ [']'])) (array [])
  /-- An array with items. -/
  | array {text : List Char} {items : List Json} (hitems : ItemsText text items) :
    ValueText ('[' :: text) (array items)
  /-- An object without entries. -/
  | emptyObject {gap : List Char} (hgap : IsGap gap) :
    ValueText ('{' :: (gap ++ ['}'])) (object [])
  /-- An object with entries, of which the last one of each key counts. -/
  | object {text : List Char} {entries : List (String × Json)}
    (hentries : EntriesText text entries) :
    ValueText ('{' :: text) (object (Table.ofList entries))
  /-- A value with white space around it. -/
  | padded {before text after : List Char} {value : Json} (hbefore : IsGap before)
    (hvalue : ValueText text value) (hafter : IsGap after) :
    ValueText (before ++ (text ++ after)) value

/-- Items with commas between them, up to the closing bracket. -/
inductive ItemsText : List Char → List Json → Prop where
  /-- The last item. -/
  | last {text : List Char} {item : Json} (hitem : ValueText text item) :
    ItemsText (text ++ [']']) [item]
  /-- An item with more behind it. -/
  | cons {text rest : List Char} {item : Json} {items : List Json} (hitem : ValueText text item)
    (hitems : ItemsText rest items) : ItemsText (text ++ ',' :: rest) (item :: items)

/-- Entries with commas between them, up to the closing brace. -/
inductive EntriesText : List Char → List (String × Json) → Prop where
  /-- The last entry. -/
  | last {keyText text : List Char} {key : String} {value : Json} (hkey : KeyText keyText key)
    (hvalue : ValueText text value) : EntriesText (keyText ++ (text ++ ['}'])) [(key, value)]
  /-- An entry with more behind it. -/
  | cons {keyText text rest : List Char} {key : String} {value : Json}
    {entries : List (String × Json)} (hkey : KeyText keyText key) (hvalue : ValueText text value)
    (hentries : EntriesText rest entries) :
    EntriesText (keyText ++ (text ++ ',' :: rest)) ((key, value) :: entries)

end

end ApiShorthand.Json
