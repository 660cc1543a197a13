import ApiShorthand.Yaml.Fault
import ApiShorthand.Text.Identifier

/-!
# Characters in their places

A YAML text is read as a list of characters, each with its place, so that the rules on columns and
lines are conditions on single elements. A line break is one element, however it is written: all
but the two separators of Unicode are read as a line feed.
-/

namespace ApiShorthand.Yaml

/-! ### Character classes -/

/-- Whether a character breaks a line. -/
def isBreak (c : Char) : Bool :=
  c == '\n' || c == '\r' || c == '\x85' || c == '\u2028' || c == '\u2029'

/-- Whether a character separates tokens on a line: a space or a tab. -/
def isBlank (c : Char) : Bool :=
  c == ' ' || c == '\t'

/-- Whether a YAML text may hold a character. -/
def isReadable (c : Char) : Bool :=
  c == '\t' || c == '\n' || c == '\r' || c == '\x85' ||
    Text.inRanges [(0x20, 0x7E), (0xA0, 0xD7FF), (0xE000, 0xFFFD), (0x10000, 0x10FFFF)] c.toNat

/-- Whether a name of an anchor, a handle or a directive may hold a character. -/
def isWordChar (c : Char) : Bool :=
  Text.isNamePart c || c == '-'

/-- Whether a character opens, closes or separates in a flow collection. -/
def isFlowIndicator (c : Char) : Bool :=
  c == ',' || c == '[' || c == ']' || c == '{' || c == '}'

/-! ### Places -/

/-- A character and its place. -/
structure Spot where
  /-- The character. -/
  char : Char
  /-- The number of octets in front of it in UTF-8. -/
  index : Nat
  /-- The number of line breaks in front of it. -/
  line : Nat
  /-- The number of characters in front of it on its line. -/
  column : Nat
deriving DecidableEq, Repr

namespace Spot

/-- The line break that is read for a character which breaks a line. -/
def readBreak (c : Char) : Char :=
  if c == '\u2028' || c == '\u2029' then c else '\n'

/-- The characters of a text in their places, the first of which is given. -/
def listFrom (index line column : Nat) : List Char → List Spot
  | [] => []
  | '\r' :: '\n' :: rest => ⟨'\n', index, line, column⟩ :: listFrom (index + 2) (line + 1) 0 rest
  | c :: rest =>
    if isBreak c then
      ⟨readBreak c, index, line, column⟩ :: listFrom (index + c.utf8Size) (line + 1) 0 rest
    else ⟨c, index, line, column⟩ :: listFrom (index + c.utf8Size) line (column + 1) rest

/-- The characters of a text in their places, if every one of them may stand in a YAML text. -/
def ofChars (text : List Char) : Except Fault (List Spot) :=
  if text.all isReadable then .ok (listFrom 0 0 0 text) else .error .forbiddenCharacter

/-- The characters without their places. -/
def chars (spots : List Spot) : List Char :=
  spots.map Spot.char

/-- Whether a blank, a line break or the end of the text comes next. -/
def atGap : List Spot → Bool
  | [] => true
  | s :: _ => isBlank s.char || isBreak s.char

/-- The text without the characters of a class at its start. -/
def skip (p : Char → Bool) (text : List Spot) : List Spot :=
  text.dropWhile fun s => p s.char

/-- The characters of a class at the start of a text. -/
def taken (p : Char → Bool) (text : List Spot) : List Char :=
  chars (text.takeWhile fun s => p s.char)

/-- Whether three equal characters stand at the start of a text, in front of a gap. -/
def startsTriple (c : Char) : List Spot → Bool
  | a :: b :: d :: rest => a.char == c && b.char == c && d.char == c && atGap rest
  | _ => false

/-- Whether the mark of a document stands at the start of a text, at the margin. -/
def atDocumentMark : List Spot → Bool
  | [] => false
  | s :: rest =>
    s.column == 0 && (startsTriple '-' (s :: rest) || startsTriple '.' (s :: rest))

/-- The text behind blanks, a comment and the line break, of which only the end is needed. Nothing
else may stand there. A comment need not be set off by a blank. -/
def finishLine (text : List Spot) : Except Fault (List Spot) :=
  let atComment := skip isBlank text
  let atEnd :=
    match atComment with
    | ⟨'#', _, _, _⟩ :: _ => skip (fun c => !isBreak c) atComment
    | _ => atComment
  match atEnd with
  | [] => .ok []
  | s :: rest => if isBreak s.char then .ok rest else .error .malformedToken

end Spot

end ApiShorthand.Yaml
