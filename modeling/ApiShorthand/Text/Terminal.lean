import ApiShorthand.Text.Octets

/-!
# Terminal sequences

A text for a terminal may hold control characters and sequences of characters that tell the terminal
what to do. `shownText` is such a text without them. A sequence starts with an escape character; its
kind is told by the next one, and decides where it ends.
-/

namespace ApiShorthand.Text

/-- What a terminal expects next. -/
inductive Expected where
  /-- Text. -/
  | text
  /-- The character that tells the kind of a sequence. -/
  | kind
  /-- More characters of a sequence that ends with a letter or a digit. -/
  | parts
  /-- The parameters of a control sequence, which ends with a letter. -/
  | parameters
  /-- A system command, which ends with a bell. -/
  | systemCommand
  /-- The start of a device command, or its parameters. -/
  | device
  /-- More parameters of a device command. -/
  | deviceParameters
  /-- More characters in front of the content of a device command. -/
  | deviceParts
  /-- The content of a string, which ends with an octet of its own. -/
  | string
deriving DecidableEq, Repr

namespace Expected

/-- Whether the code of a character lies between two others. -/
def isWithin (low high : Nat) (c : Char) : Bool :=
  low ≤ c.toNat && c.toNat ≤ high

/-- Whether a control character is white space, which is shown. -/
def isShownControl (c : Char) : Bool :=
  c == '\t' || c == '\n' || c == '\x0c' || c == '\r'

/-- Whether a character is shown in a text. -/
def isShownInText (c : Char) : Bool :=
  isShownControl c || isWithin 0x20 0x7E c || 0x80 ≤ c.toNat

/-- Whether a character is shown. White space interrupts the short sequences. -/
def shows : Expected → Char → Bool
  | text, c => isShownInText c
  | kind, c | parts, c | parameters, c => isShownControl c
  | _, _ => false

/-- What is expected behind the character that tells the kind of a sequence. -/
def ofKind (c : Char) : Expected :=
  if c == '[' then parameters
  else if c == ']' then systemCommand
  else if c == 'P' then device
  else if c == 'X' || c == '^' || c == '_' then string
  else if isWithin 0x20 0x2F c then parts
  else if isWithin 0x30 0x7E c then text
  else kind

/-- Whether the octet that ends a string is among those of a character. -/
def endsString (c : Char) : Bool :=
  (octetsOf [c]).contains 0x9C

/-- What is expected behind a character. Two characters break every sequence off. -/
def next (expected : Expected) (c : Char) : Expected :=
  if c == '\x18' || c == '\x1a' then text
  else if c == '\x1b' then kind
  else
    match expected with
    | text => text
    | kind => ofKind c
    | parts => if isWithin 0x30 0x7E c then text else parts
    | parameters => if isWithin 0x40 0x7E c then text else parameters
    | systemCommand => if c == '\x07' then text else systemCommand
    | device =>
      if isWithin 0x20 0x2F c then deviceParts
      else if isWithin 0x30 0x3F c then deviceParameters
      else if isWithin 0x40 0x7E c then string
      else device
    | deviceParameters =>
      if isWithin 0x20 0x2F c then deviceParts
      else if isWithin 0x3C 0x7E c then string
      else deviceParameters
    | deviceParts => if isWithin 0x30 0x7E c then string else deviceParts
    | string => if endsString c then text else string

end Expected

/-- The characters that are shown. `inText` tells that text was shown last. A sequence that white
space interrupts is over, or, with `resumes`, goes on behind the ASCII text that follows. -/
def shownFrom (resumes : Bool) : Expected → (inText : Bool) → List Char → List Char
  | _, _, [] => []
  | expected, inText, c :: rest =>
    if (inText && Expected.isShownInText c) || expected.shows c then
      let expected := if resumes && c.toNat < 0x80 then expected else .text
      c :: shownFrom resumes expected true rest
    else shownFrom resumes (expected.next c) false rest

/-- The characters of a text that a terminal shows. -/
def shownText (resumes : Bool) (text : String) : String :=
  String.ofList (shownFrom resumes .text false text.toList)

end ApiShorthand.Text
