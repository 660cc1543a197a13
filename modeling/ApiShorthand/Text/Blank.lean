/-!
# Blank characters

`isBlank` is the Unicode property White_Space: 25 characters in ten ranges. Trimming and splitting
into words are defined from it on lists of characters, so that their laws follow from those of
`List.dropWhile` and `List.takeWhile`.
-/

namespace ApiShorthand.Text

/-- Whether one of the closed ranges of code points holds `n`. -/
def inRanges (ranges : List (Nat × Nat)) (n : Nat) : Bool :=
  ranges.any fun range => range.1 ≤ n && n ≤ range.2

/-- The code points with the property White_Space, as ascending closed ranges. -/
def blankRanges : List (Nat × Nat) :=
  [(0x09, 0x0D), (0x20, 0x20), (0x85, 0x85), (0xA0, 0xA0), (0x1680, 0x1680), (0x2000, 0x200A),
    (0x2028, 0x2029), (0x202F, 0x202F), (0x205F, 0x205F), (0x3000, 0x3000)]

/-- Whether a character is white space. -/
def isBlank (c : Char) : Bool :=
  inRanges blankRanges c.toNat

/-- The text without the white space at its start. -/
def trimStart (text : List Char) : List Char :=
  text.dropWhile isBlank

/-- The text without the white space at its end. -/
def trimEnd (text : List Char) : List Char :=
  (text.reverse.dropWhile isBlank).reverse

/-- The text without the white space around it. -/
def trim (text : List Char) : List Char :=
  trimEnd (trimStart text)

/-- The white space at the start of the text. -/
def indentation (text : List Char) : List Char :=
  text.takeWhile isBlank

/-- The maximal runs of characters that are not white space, in order. -/
def words (text : List Char) : List (List Char) :=
  go [] text
where
  /-- Reads on with the letters of an open word, last one first. -/
  go (letters : List Char) : List Char → List (List Char)
    | [] => close letters []
    | c :: rest => if isBlank c then close letters (go [] rest) else go (c :: letters) rest
  /-- Puts the open word, if it has a letter, before the later words. -/
  close (letters : List Char) (later : List (List Char)) : List (List Char) :=
    if letters.isEmpty then later else letters.reverse :: later

/-! ### Laws -/

/-- The ranges hold 25 characters. -/
example : (blankRanges.map fun range => range.2 + 1 - range.1).sum = 25 := by decide

/-- Indentation and the text behind it make up the text. -/
theorem indentation_append_trimStart (text : List Char) :
    indentation text ++ trimStart text = text :=
  List.takeWhile_append_dropWhile

@[simp] theorem trimStart_nil : trimStart [] = [] := rfl

@[simp] theorem trimEnd_nil : trimEnd [] = [] := rfl

theorem trimStart_cons_of_not_isBlank {c : Char} {text : List Char} (h : isBlank c = false) :
    trimStart (c :: text) = c :: text := by
  simp [trimStart, h]

end ApiShorthand.Text
