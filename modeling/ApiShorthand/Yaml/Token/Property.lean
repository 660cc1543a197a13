import ApiShorthand.Yaml.Token
import ApiShorthand.Text.Octets

/-!
# Names, tags and directives

The tokens that consist of words: anchors and references to them, tags, and the directives in front
of a document. A tag is a sequence of octets, because it may be written with escapes.
-/

namespace ApiShorthand.Yaml

/-! ### Anchors and aliases -/

/-- Whether the name of an anchor can stand in front of a text. -/
def endsAnchor : List Spot → Bool
  | [] => true
  | s :: rest => Spot.atGap (s :: rest) || "?:,]\x7d%@`".toList.contains s.char

/-- Reads the name of an anchor behind its indicator. -/
def readAnchor (text : List Spot) : Except Fault (List Char × List Spot) :=
  let name := Spot.taken isWordChar text
  let rest := Spot.skip isWordChar text
  if name.isEmpty || !endsAnchor rest then .error .malformedToken else .ok (name, rest)

/-! ### Tags -/

namespace TagText

/-- Whether a character other than an escape can stand in a tag; a full tag may hold more. -/
def isTagChar (full : Bool) (c : Char) : Bool :=
  isWordChar c || ";/?:@&=+$.!~*'()".toList.contains c ||
    (full && (c == ',' || c == '[' || c == ']'))

/-- The number of octets of the character that starts with an octet. -/
def width? (octet : Nat) : Option Nat :=
  if octet < 0x80 then some 1
  else if octet < 0xC0 then none
  else if octet < 0xE0 then some 2
  else if octet < 0xF0 then some 3
  else if octet < 0xF8 then some 4
  else none

/-- The value of an escaped octet, of which the two digits are given. -/
def octet? (high low : Char) : Option Nat := do
  some (16 * (← Text.hexValue? high) + (← Text.hexValue? low))

/-- The octets of a tag and the text behind them. `missing` is the number of octets that the last
escaped character still lacks. -/
def readOctets (full : Bool) : (missing : Nat) → List Spot → Except Fault (List UInt8 × List Spot)
  | missing, ⟨'%', _, _, _⟩ :: high :: low :: rest => do
    let some octet := octet? high.char low.char | throw .malformedToken
    let missing ←
      match missing with
      | 0 =>
        match width? octet with
        | some width => pure (width - 1)
        | none => throw .malformedToken
      | left + 1 => if octet / 64 = 2 then pure left else throw .malformedToken
    let (octets, rest) ← readOctets full missing rest
    return (UInt8.ofNat octet :: octets, rest)
  | missing, s :: rest => do
    if missing ≠ 0 || s.char == '%' then throw .malformedToken
    else if isTagChar full s.char then
      let (octets, rest) ← readOctets full 0 rest
      return (Text.octetsOf [s.char] ++ octets, rest)
    else return ([], s :: rest)
  | missing, [] => if missing = 0 then .ok ([], []) else .error .malformedToken

/-- The octets in front of the first that is zero, which ends a tag. -/
def cut (octets : List UInt8) : List UInt8 :=
  octets.takeWhile (· ≠ 0)

/-- The characters of a handle behind its exclamation mark, the one at its end included, and the
text behind them. -/
def readHandle (text : List Spot) : List Char × List Spot :=
  let name := Spot.taken isWordChar text
  match Spot.skip isWordChar text with
  | ⟨'!', _, _, _⟩ :: rest => (name ++ ['!'], rest)
  | rest => (name, rest)

/-- Whether the characters behind the exclamation mark of a handle end in another one. -/
def isClosed (name : List Char) : Bool :=
  name.getLast? == some '!'

/-- Reads a tag behind its exclamation mark, up to what ends it. -/
def readOpen : List Spot → Except Fault (TagText × List Spot)
  | ⟨'<', _, _, _⟩ :: text => do
    let (octets, rest) ← readOctets true 0 text
    match octets, rest with
    | _ :: _, ⟨'>', _, _, _⟩ :: rest => return (⟨[], cut octets⟩, rest)
    | _, _ => throw .malformedToken
  | text => do
    let (name, behind) := readHandle text
    if isClosed name then
      let (octets, rest) ← readOctets false 0 behind
      if octets.isEmpty then throw .malformedToken
      return (⟨'!' :: name, cut octets⟩, rest)
    else
      let (octets, rest) ← readOctets false 0 behind
      match cut (Text.octetsOf name ++ octets) with
      | [] => return (⟨[], Text.octetsOf ['!']⟩, rest)
      | suffix => return (⟨['!'], suffix⟩, rest)

/-- Reads a tag behind its exclamation mark. A gap follows it, or a comma in a flow collection. -/
def read (inFlow : Bool) (text : List Spot) : Except Fault (TagText × List Spot) := do
  let (tag, rest) ← readOpen text
  match rest with
  | ⟨',', _, _, _⟩ :: _ => if inFlow then return (tag, rest) else throw .malformedToken
  | _ => if Spot.atGap rest then return (tag, rest) else throw .malformedToken

end TagText

/-! ### Directives -/

namespace Directive

/-- A number of at most nine digits and the text behind it. -/
def readNumber (text : List Spot) : Except Fault (Nat × List Spot) :=
  let digits := Spot.taken Text.isDigit text
  if digits.isEmpty || digits.length > 9 then .error .malformedToken
  else
    .ok (digits.foldl (fun n c => 10 * n + (c.toNat - 48)) 0, Spot.skip Text.isDigit text)

/-- Reads the version of a directive. -/
def readVersion (text : List Spot) : Except Fault (Token × List Spot) := do
  let (major, rest) ← readNumber (Spot.skip isBlank text)
  match rest with
  | ⟨'.', _, _, _⟩ :: rest =>
    let (minor, rest) ← readNumber rest
    return (.version major minor, rest)
  | _ => throw .malformedToken

/-- Reads the handle and the start of the tags that a directive declares. -/
def readTagHandle (text : List Spot) : Except Fault (Token × List Spot) := do
  match Spot.skip isBlank text with
  | ⟨'!', _, _, _⟩ :: text =>
    let (name, rest) := TagText.readHandle text
    if !name.isEmpty && !TagText.isClosed name then throw .malformedToken
    match rest with
    | [] => throw .malformedToken
    | s :: _ =>
      if !isBlank s.char then throw .malformedToken
      let (octets, rest) ← TagText.readOctets true 0 (Spot.skip isBlank rest)
      if octets.isEmpty || !Spot.atGap rest then throw .malformedToken
      return (.tagHandle ('!' :: name) (TagText.cut octets), rest)
  | _ => throw .malformedToken

/-- Reads a directive behind its percent sign, to the end of its line. -/
def read (text : List Spot) : Except Fault (Token × List Spot) := do
  let name := String.ofList (Spot.taken isWordChar text)
  let rest := Spot.skip isWordChar text
  if !Spot.atGap rest then throw .malformedToken
  let (token, rest) ←
    if name = "YAML" then readVersion rest
    else if name = "TAG" then readTagHandle rest
    else throw .malformedToken
  return (token, ← Spot.finishLine rest)

end Directive

end ApiShorthand.Yaml
