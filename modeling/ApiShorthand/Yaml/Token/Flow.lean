import ApiShorthand.Yaml.Spot

/-!
# Flow scalars

Scalars without quotes, in single quotes and in double quotes. All three fold their lines in the
same way: a single line break between two lines becomes a space, of several the first is dropped,
and the blanks around them do not count. `Gap` is what stands between two characters that count.
-/

namespace ApiShorthand.Yaml

/-! ### Folding -/

/-- What was read between two characters of a flow scalar that count. -/
inductive Gap where
  /-- Blanks on one line. -/
  | blanks (characters : List Char)
  /-- Line breaks: the first one, or nothing if it was escaped, and the later ones. -/
  | breaks (first : Option Char) (later : List Char)
deriving DecidableEq, Repr

namespace Gap

/-- The gap with nothing in it. -/
def none : Gap := blanks []

/-- Whether a gap reaches over a line break. -/
def isBroken : Gap → Bool
  | blanks _ => false
  | breaks _ _ => true

/-- The gap with one more blank, which does not count next to a line break. -/
def addBlank (c : Char) : Gap → Gap
  | blanks characters => blanks (characters ++ [c])
  | breaks first later => breaks first later

/-- The gap with one more line break, next to which no blank counts. -/
def addBreak (c : Char) : Gap → Gap
  | blanks _ => breaks (some c) []
  | breaks first later => breaks first (later ++ [c])

/-- The characters that a gap stands for. -/
def fold : Gap → List Char
  | blanks characters => characters
  | breaks (some '\n') [] => [' ']
  | breaks (some '\n') later => later
  | breaks first later => first.toList ++ later

end Gap

/-! ### Scalars without quotes -/

/-- A scalar that was read, and the text behind it. -/
structure FlowScalar where
  /-- The characters of the scalar. -/
  text : List Char
  /-- Whether a line break was read behind the scalar. -/
  broken : Bool
  /-- The text behind the scalar. -/
  rest : List Spot
deriving DecidableEq, Repr

/-- Puts a gap and a character in front of what was read behind them. -/
def FlowScalar.prepend (gap : Gap) (c : Char) (scalar : FlowScalar) : FlowScalar :=
  { scalar with text := gap.fold ++ c :: scalar.text }

/-- Whether a colon here ends a scalar without quotes. -/
def endsPlain (inFlow : Bool) (c : Char) (rest : List Spot) : Bool :=
  (c == ':' && Spot.atGap rest) || (inFlow && isFlowIndicator c)

/-- Whether a colon here is refused: in a flow collection next to an indicator. -/
def isStrayColon (inFlow : Bool) (c : Char) : List Spot → Bool
  | [] => false
  | next :: _ => inFlow && c == ':' && (isFlowIndicator next.char || next.char == '?')

/-- Reads on in a scalar without quotes, behind a gap. In a block collection its later lines are
at least `indent` columns deep. -/
def readPlain (inFlow : Bool) (indent : Int) (gap : Gap) : List Spot → Except Fault FlowScalar
  | [] => .ok ⟨[], gap.isBroken, []⟩
  | s :: rest =>
    if isBlank s.char then
      if gap.isBroken && s.char == '\t' && (s.column : Int) < indent then .error .malformedToken
      else readPlain inFlow indent (gap.addBlank s.char) rest
    else if isBreak s.char then readPlain inFlow indent (gap.addBreak s.char) rest
    else if gap.isBroken && !inFlow && (s.column : Int) < indent then .ok ⟨[], true, s :: rest⟩
    else if Spot.atDocumentMark (s :: rest) || (s.char == '#' && gap != Gap.none) then
      .ok ⟨[], gap.isBroken, s :: rest⟩
    else if isStrayColon inFlow s.char rest then .error .malformedToken
    else if endsPlain inFlow s.char rest then .ok ⟨[], gap.isBroken, s :: rest⟩
    else (readPlain inFlow indent Gap.none rest).map (FlowScalar.prepend gap s.char)

/-! ### Scalars in quotes -/

/-- What stands behind a backslash in double quotes. -/
inductive Escape where
  /-- A letter that stands for a character. -/
  | letter (character : Char)
  /-- A letter that announces this number of hexadecimal digits. -/
  | code (digits : Nat)
deriving DecidableEq, Repr

/-- The meaning of a letter behind a backslash. -/
def escape? : Char → Option Escape
  | '0' => some (.letter '\x00')
  | 'a' => some (.letter '\x07')
  | 'b' => some (.letter '\x08')
  | 't' => some (.letter '\t')
  | '\t' => some (.letter '\t')
  | 'n' => some (.letter '\n')
  | 'v' => some (.letter '\x0b')
  | 'f' => some (.letter '\x0c')
  | 'r' => some (.letter '\r')
  | 'e' => some (.letter '\x1b')
  | ' ' => some (.letter ' ')
  | '"' => some (.letter '"')
  | '/' => some (.letter '/')
  | '\\' => some (.letter '\\')
  | 'N' => some (.letter '\x85')
  | '_' => some (.letter '\xa0')
  | 'L' => some (.letter '\u2028')
  | 'P' => some (.letter '\u2029')
  | 'x' => some (.code 2)
  | 'u' => some (.code 4)
  | 'U' => some (.code 8)
  | _ => none

/-- How far the reading of a character in double quotes has come. -/
inductive QuoteState where
  /-- Between characters. -/
  | between
  /-- Behind a backslash. -/
  | escaped
  /-- Within the digits of a code: the value so far and the number of digits that are left. -/
  | code (value left : Nat)
deriving DecidableEq, Repr

/-- The character of a code, if there is one. -/
def charOfCode? (value : Nat) : Option Char :=
  if h : value.isValidChar then some (Char.ofNatAux value h) else none

/-- Reads on in double quotes, behind a gap. -/
def readDouble (gap : Gap) : QuoteState → List Spot → Except Fault FlowScalar
  | _, [] => .error .malformedToken
  | .escaped, s :: rest =>
    if isBreak s.char then
      -- the blanks in front of an escaped line break count
      (readDouble (.breaks none []) .between rest).map fun scalar =>
        { scalar with text := gap.fold ++ scalar.text }
    else
      match escape? s.char with
      | none => .error .malformedToken
      | some (.letter c) =>
        (readDouble Gap.none .between rest).map (FlowScalar.prepend gap c)
      | some (.code digits) => readDouble gap (.code 0 digits) rest
  | .code value left, s :: rest =>
    match Text.hexValue? s.char with
    | none => .error .malformedToken
    | some digit =>
      if left ≤ 1 then
        match charOfCode? (16 * value + digit) with
        | none => .error .malformedToken
        | some c => (readDouble Gap.none .between rest).map (FlowScalar.prepend gap c)
      else readDouble gap (.code (16 * value + digit) (left - 1)) rest
  | .between, s :: rest =>
    if isBlank s.char then readDouble (gap.addBlank s.char) .between rest
    else if isBreak s.char then readDouble (gap.addBreak s.char) .between rest
    else if Spot.atDocumentMark (s :: rest) then .error .malformedToken
    else if s.char == '"' then .ok ⟨gap.fold, false, rest⟩
    else if s.char == '\\' then readDouble gap .escaped rest
    else (readDouble Gap.none .between rest).map (FlowScalar.prepend gap s.char)

/-- Reads on in single quotes, behind a gap. Two single quotes stand for one. -/
def readSingle (gap : Gap) : List Spot → Except Fault FlowScalar
  | [] => .error .malformedToken
  | s :: rest =>
    if isBlank s.char then readSingle (gap.addBlank s.char) rest
    else if isBreak s.char then readSingle (gap.addBreak s.char) rest
    else if Spot.atDocumentMark (s :: rest) then .error .malformedToken
    else if s.char == '\'' then
      match rest with
      | ⟨'\'', _, _, _⟩ :: rest =>
        (readSingle Gap.none rest).map (FlowScalar.prepend gap '\'')
      | _ => .ok ⟨gap.fold, false, rest⟩
    else (readSingle Gap.none rest).map (FlowScalar.prepend gap s.char)

end ApiShorthand.Yaml
