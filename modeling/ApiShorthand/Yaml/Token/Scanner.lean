import ApiShorthand.Yaml.Token.Flow
import ApiShorthand.Yaml.Token.Block
import ApiShorthand.Yaml.Token.Property

/-!
# From characters to tokens

`Scanner` is what has been read of a text. Indentation opens and closes block collections. A key
without an indicator is known as a key only when its colon is reached: until then `Scanner.keyPlace`
remembers where it started, and the colon puts the tokens of a mapping and of a key there.
-/

namespace ApiShorthand.Yaml

/-- A place at which a key may have started. -/
structure KeyPlace where
  /-- Whether nothing but a key can stand at this place. -/
  required : Bool
  /-- The number of tokens in front of it. -/
  tokens : Nat
  /-- The first character. -/
  spot : Spot
deriving DecidableEq, Repr

/-- What has been read of a text, and what is left. -/
structure Scanner where
  /-- The text that is left. -/
  rest : List Spot
  /-- The tokens that were read, the last one first. -/
  tokens : List Token
  /-- The column of the innermost block collection, or `-1`. -/
  indent : Int
  /-- The columns of the block collections around it, the inner ones first. -/
  outerIndents : List Int
  /-- Whether a key without an indicator may start here. -/
  keyAllowed : Bool
  /-- The place at which such a key may have started in the innermost flow collection. -/
  keyPlace : Option KeyPlace
  /-- The same for each collection around that, the inner ones first; none in a block. -/
  outerKeyPlaces : List (Option KeyPlace)
deriving DecidableEq, Repr

namespace Scanner

/-- Nothing has been read. -/
def start (text : List Spot) : Scanner where
  rest := text
  tokens := []
  indent := -1
  outerIndents := []
  keyAllowed := true
  keyPlace := none
  outerKeyPlaces := []

/-- Whether the text that is left stands in a flow collection. -/
def inFlow (s : Scanner) : Bool :=
  !s.outerKeyPlaces.isEmpty

/-- Adds a token and leaves this text. -/
def emit (s : Scanner) (token : Token) (rest : List Spot) : Scanner :=
  { s with tokens := token :: s.tokens, rest }

/-! ### White space -/

/-- Skips blanks, comments and line breaks, and a byte order mark that starts a line. A tab counts
as a blank where no key can start. Behind a line break of a block a key can start. -/
def skipSpace (inFlow : Bool) : (keyAllowed inComment : Bool) → List Spot → Bool × List Spot
  | keyAllowed, _, [] => (keyAllowed, [])
  | keyAllowed, inComment, s :: rest =>
    if isBreak s.char then skipSpace inFlow (keyAllowed || !inFlow) false rest
    else if inComment then skipSpace inFlow keyAllowed true rest
    else if s.char == ' ' || (s.char == '\uFEFF' && s.column == 0) then
      skipSpace inFlow keyAllowed false rest
    else if s.char == '\t' && (inFlow || !keyAllowed) then skipSpace inFlow keyAllowed false rest
    else if s.char == '#' then skipSpace inFlow keyAllowed true rest
    else (keyAllowed, s :: rest)

/-- Skips what stands in front of the next token. -/
def toToken (s : Scanner) : Scanner :=
  let (keyAllowed, rest) := skipSpace s.inFlow s.keyAllowed false s.rest
  { s with keyAllowed, rest }

/-! ### Indentation -/

/-- Opens a block collection with the token `opening` at a column, if it is deeper than the one
around it. Of the tokens that were read, `later` stand behind the opening. -/
def openBlock (s : Scanner) (column : Nat) (later : Nat) (opening : Token) : Scanner :=
  if !s.inFlow && s.indent < column then
    { s with
      tokens := s.tokens.insertIdx later opening
      indent := column
      outerIndents := s.indent :: s.outerIndents }
  else s

/-- Closes the block collections that are deeper than a column, of which there are some in
`indents`. -/
def closeIndents (column : Int) (tokens : List Token) (indent : Int) :
    List Int → List Token × Int × List Int
  | [] => (tokens, indent, [])
  | outer :: rest =>
    if column < indent then closeIndents column (.blockEnd :: tokens) outer rest
    else (tokens, indent, outer :: rest)

/-- Closes the block collections that are deeper than a column. In a flow collection columns do
not matter. -/
def closeBlocks (s : Scanner) (column : Int) : Scanner :=
  if s.inFlow then s
  else
    let (tokens, indent, outerIndents) := closeIndents column s.tokens s.indent s.outerIndents
    { s with tokens, indent, outerIndents }

/-! ### Places of keys -/

/-- A place of a key that is given up, which must not be one where a key is required. -/
def giveUp : Option KeyPlace → Except Fault (Option KeyPlace)
  | some place => if place.required then .error .keyWithoutValue else .ok none
  | none => .ok none

/-- Gives up the innermost place of a key. -/
def dropKey (s : Scanner) : Except Fault Scanner := do
  return { s with keyPlace := ← giveUp s.keyPlace }

/-- Remembers that a key may start here. -/
def saveKey (s : Scanner) (spot : Spot) : Except Fault Scanner := do
  if s.keyAllowed then
    let required := !s.inFlow && s.indent == (spot.column : Int)
    let s ← s.dropKey
    return { s with keyPlace := some ⟨required, s.tokens.length, spot⟩ }
  else return s

/-- Gives up a place of a key that is on an earlier line or more than 1024 octets back. -/
def refresh (here : Spot) (place : Option KeyPlace) : Except Fault (Option KeyPlace) :=
  match place with
  | none => .ok none
  | some key =>
    if key.spot.line < here.line || key.spot.index + 1024 < here.index then giveUp place
    else .ok place

/-- Gives up all places of keys that are too far back. -/
def refreshKeys (s : Scanner) (here : Spot) : Except Fault Scanner := do
  return { s with
    keyPlace := ← refresh here s.keyPlace
    outerKeyPlaces := ← s.outerKeyPlaces.mapM (refresh here) }

/-! ### Tokens -/

/-- Reads the mark of a document. -/
def readMark (s : Scanner) (token : Token) (rest : List Spot) : Except Fault Scanner := do
  let s ← (s.closeBlocks (-1)).dropKey
  return { s.emit token rest with keyAllowed := false }

/-- Reads a directive. -/
def readDirective (s : Scanner) (rest : List Spot) : Except Fault Scanner := do
  let s ← (s.closeBlocks (-1)).dropKey
  let (token, rest) ← Directive.read rest
  return { s.emit token rest with keyAllowed := false }

/-- Reads the opening of a flow collection. -/
def readOpening (s : Scanner) (token : Token) (here : Spot) (rest : List Spot) :
    Except Fault Scanner := do
  let s ← s.saveKey here
  return { s.emit token rest with
    keyAllowed := true
    keyPlace := none
    outerKeyPlaces := s.keyPlace :: s.outerKeyPlaces }

/-- Reads the closing of a flow collection. One that was not opened closes nothing. -/
def readClosing (s : Scanner) (token : Token) (rest : List Spot) : Except Fault Scanner := do
  let s ← s.dropKey
  let s :=
    match s.outerKeyPlaces with
    | [] => s
    | keyPlace :: outerKeyPlaces => { s with keyPlace, outerKeyPlaces }
  return { s.emit token rest with keyAllowed := false }

/-- Reads a comma. -/
def readComma (s : Scanner) (rest : List Spot) : Except Fault Scanner := do
  let s ← s.dropKey
  return { s.emit .comma rest with keyAllowed := true }

/-- Opens a block collection, if there is none at a column, at a place where a key may start. -/
def openHere (s : Scanner) (here : Spot) (opening : Token) : Except Fault Scanner :=
  if s.inFlow then .ok s
  else if s.keyAllowed then .ok (s.openBlock here.column 0 opening)
  else .error .malformedToken

/-- Reads the dash of an item. -/
def readItem (s : Scanner) (here : Spot) (rest : List Spot) : Except Fault Scanner := do
  let s ← (← s.openHere here .blockSequence).dropKey
  return { s.emit .item rest with keyAllowed := true }

/-- Reads the question mark of a key. -/
def readKey (s : Scanner) (here : Spot) (rest : List Spot) : Except Fault Scanner := do
  let s ← (← s.openHere here .blockMapping).dropKey
  return { s.emit .key rest with keyAllowed := !s.inFlow }

/-- Reads the colon of a value. If a key started before it, that is known now. -/
def readValue (s : Scanner) (here : Spot) (rest : List Spot) : Except Fault Scanner := do
  match s.keyPlace with
  | some place =>
    let later := s.tokens.length - place.tokens
    let marked := { s with tokens := s.tokens.insertIdx later .key, keyPlace := none }
    let opened := marked.openBlock place.spot.column (later + 1) .blockMapping
    return { opened.emit .value rest with keyAllowed := false }
  | none =>
    let s ← s.openHere here .blockMapping
    return { s.emit .value rest with keyAllowed := !s.inFlow }

/-- Reads an anchor or a reference to one. -/
def readName (s : Scanner) (token : List Char → Token) (here : Spot) (rest : List Spot) :
    Except Fault Scanner := do
  let s ← s.saveKey here
  let (name, rest) ← readAnchor rest
  return { s.emit (token name) rest with keyAllowed := false }

/-- Reads a tag. -/
def readTag (s : Scanner) (here : Spot) (rest : List Spot) : Except Fault Scanner := do
  let s ← s.saveKey here
  let (tag, rest) ← TagText.read s.inFlow rest
  return { s.emit (.tag tag) rest with keyAllowed := false }

/-- Reads a block scalar. -/
def readBlock (s : Scanner) (literal : Bool) (rest : List Spot) : Except Fault Scanner := do
  let s ← s.dropKey
  let (text, rest) ← BlockScalar.read literal s.indent rest
  return { s.emit (.scalar text false) rest with keyAllowed := true }

/-- Reads a scalar in quotes. -/
def readQuoted (s : Scanner) (double : Bool) (here : Spot) (rest : List Spot) :
    Except Fault Scanner := do
  let s ← s.saveKey here
  let scalar ← if double then readDouble Gap.none .between rest else readSingle Gap.none rest
  return { s.emit (.scalar scalar.text false) scalar.rest with keyAllowed := false }

/-- Reads a scalar without quotes, behind which a key may start if it ended with its line. -/
def readPlain (s : Scanner) (here : Spot) : Except Fault Scanner := do
  let s ← s.saveKey here
  let scalar ← Yaml.readPlain s.inFlow (s.indent + 1) Gap.none s.rest
  return { s.emit (.scalar scalar.text true) scalar.rest with keyAllowed := scalar.broken }

/-- Whether a character is an indicator, with which no scalar without quotes starts. -/
def isIndicator (c : Char) : Bool :=
  isFlowIndicator c || "-?:#&*!|>'\"%@`".toList.contains c

/-- Whether a scalar without quotes starts with a character in front of a text. -/
def startsPlain (inFlow : Bool) (c : Char) (rest : List Spot) : Bool :=
  if c == '-' then true
  else if c == '?' || c == ':' then !inFlow && !Spot.atGap rest
  else !isIndicator c

/-- Reads the token that starts with a character. -/
def readToken (s : Scanner) (here : Spot) (rest : List Spot) : Except Fault Scanner :=
  if here.column == 0 && here.char == '%' then s.readDirective rest
  else if Spot.atDocumentMark s.rest then
    s.readMark (if here.char == '-' then .documentStart else .documentEnd) (rest.drop 2)
  else
    match here.char with
    | '[' => s.readOpening .openSequence here rest
    | '{' => s.readOpening .openMapping here rest
    | ']' => s.readClosing .closeSequence rest
    | '}' => s.readClosing .closeMapping rest
    | ',' => s.readComma rest
    | '*' => s.readName .reference here rest
    | '&' => s.readName .anchor here rest
    | '!' => s.readTag here rest
    | '"' => s.readQuoted true here rest
    | '\'' => s.readQuoted false here rest
    | c =>
      if c == '-' && Spot.atGap rest then s.readItem here rest
      else if c == '?' && (s.inFlow || Spot.atGap rest) then s.readKey here rest
      else if c == ':' && (s.inFlow || Spot.atGap rest) then s.readValue here rest
      else if (c == '|' || c == '>') && !s.inFlow then s.readBlock (c == '|') rest
      else if startsPlain s.inFlow c rest && !isBlank c then s.readPlain here
      else .error .malformedToken

/-- The tokens at the end of the text, in order. -/
def finish (s : Scanner) : Except Fault (List Token) := do
  let s ← (s.closeBlocks (-1)).dropKey
  return s.tokens.reverse

/-- All tokens of the text that is left, behind those that were read. Each token takes a unit of
fuel and at least one character. -/
def run : Nat → Scanner → Except Fault (List Token)
  | 0, s => s.finish
  | fuel + 1, s => do
    let s := s.toToken
    match s.rest with
    | [] => s.finish
    | here :: rest =>
      let s ← s.refreshKeys here
      run fuel (← (s.closeBlocks here.column).readToken here rest)

end Scanner

/-- The tokens of a text. -/
def Token.ofSpots (text : List Spot) : Except Fault (List Token) :=
  (Scanner.start text).run (text.length + 1)

end ApiShorthand.Yaml
