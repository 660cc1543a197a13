import ApiShorthand.Yaml.Spot
import ApiShorthand.Yaml.Scalar

/-!
# Styles of scalars

In which of four ways a text is written as a scalar. `Style.ofChars` selects the first that is
possible: a text of several lines is written literally, one that would be read as another value in
single quotes, any other without quotes; where this is not possible, single quotes come next, and
double quotes, in which everything can be written, last.
-/

namespace ApiShorthand.Yaml

/-- The ways to write a text. -/
inductive Style where
  /-- Without quotes. -/
  | plain
  /-- In single quotes. -/
  | single
  /-- In double quotes, with escapes. -/
  | double
  /-- On lines of its own under an indicator. -/
  | literal
deriving DecidableEq, Repr

/-- Whether a character can be written as it is. -/
def isPrintable (c : Char) : Bool :=
  c == '\n' || Text.inRanges
    [(0x20, 0x7E), (0xA0, 0xD7FF), (0xE000, 0xFEFE), (0xFF00, 0xFFFD), (0x10000, 0x10FFFF)] c.toNat

namespace Style

/-- Whether some character and the next one have these properties. -/
def anyPair (first second : Char → Bool) : List Char → Bool
  | a :: b :: rest => (first a && second b) || anyPair first second (b :: rest)
  | _ => false

/-- Whether a character at the end of a property is followed by a blank, a line break or nothing. -/
def isFollowedByGap : List Char → Bool
  | [] => true
  | c :: _ => isBlank c || isBreak c

/-- Whether the first character of a text means something at the start of a scalar. -/
def startsWithIndicator : List Char → Bool
  | [] => false
  | c :: rest =>
    "#,[]\x7b\x7d&*!|>'\"%@`".toList.contains c ||
      ((c == '?' || c == ':' || c == '-') && isFollowedByGap rest)

/-- Whether a mark of a document stands at the start of a text. -/
def startsWithMark : List Char → Bool
  | '-' :: '-' :: '-' :: _ => true
  | '.' :: '.' :: '.' :: _ => true
  | _ => false

/-- Whether a colon in front of a gap stands in a text. -/
def hasValueMark : List Char → Bool
  | [] => false
  | c :: rest => (c == ':' && isFollowedByGap rest) || hasValueMark rest

/-- Whether a number sign behind a gap stands in a text. -/
def hasComment (text : List Char) : Bool :=
  anyPair (fun c => isBlank c || isBreak c) (· == '#') text

/-- Whether the first or the last character of a text has a property. -/
def anyEnd (p : Char → Bool) (text : List Char) : Bool :=
  text.head?.any p || text.getLast?.any p

/-- Whether a text can be written in quotes of either kind or literally without an escape. -/
def needsNoEscape (text : List Char) : Bool :=
  text.all isPrintable && !anyPair (· == ' ') isBreak text

/-- Whether a text can be written without quotes, were it not read as another value. -/
def allowsPlain (text : List Char) : Bool :=
  needsNoEscape text && !text.any isBreak && !anyEnd (· == ' ') text &&
    !startsWithIndicator text && !startsWithMark text && !hasValueMark text && !hasComment text

/-- Whether a text can be written in single quotes. -/
def allowsSingle (text : List Char) : Bool :=
  needsNoEscape text && !anyPair isBreak (· == ' ') text

/-- Whether a text can be written literally. -/
def allowsLiteral (text : List Char) : Bool :=
  needsNoEscape text && !text.getLast?.any (· == ' ')

/-- Whether a text without quotes would be read as another value than itself, or looks like a
number. -/
def isAmbiguous (text : List Char) : Bool :=
  match Meaning.ofChars text with
  | .text => Meaning.hasExtraZero text
  | _ => true

/-- The style in which a text is written. -/
def ofChars (text : List Char) : Style :=
  if text.contains '\n' then if allowsLiteral text then literal else double
  else if allowsPlain text && !isAmbiguous text then plain
  else if allowsSingle text then single
  else double

end Style

end ApiShorthand.Yaml
