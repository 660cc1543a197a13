import ApiShorthand.Yaml.Node
import ApiShorthand.Text.Octets

/-!
# From tokens to nodes

`Node.ofTokens?` reads the one document of a stream of tokens, unless there is none. Every function
takes the tokens that are left and the anchors that are known, and gives back what is left and known
behind the node.
-/

namespace ApiShorthand.Yaml

/-- The tokens that are left, and the numbers of the anchors that are known. -/
structure TokenStream where
  /-- The tokens that are left. -/
  tokens : List Token
  /-- The latest number of each name of an anchor. -/
  anchors : List (List Char × Nat)
deriving DecidableEq, Repr

namespace TokenStream

/-- The stream with other tokens left. -/
def leaving (stream : TokenStream) (tokens : List Token) : TokenStream :=
  { stream with tokens }

/-- The number of the next anchor: how many names are known. -/
def nextAnchor (stream : TokenStream) : Nat :=
  stream.anchors.length

/-- The stream that knows a name of an anchor under the next number. -/
def define (stream : TokenStream) (name : List Char) : TokenStream :=
  { stream with
    anchors := (name, stream.nextAnchor) :: stream.anchors.filter fun entry => entry.1 ≠ name }

end TokenStream

namespace Node

/-! ### Tags -/

/-- What tag handles stand for. -/
abbrev Handles := List (List Char × List UInt8)

/-- The handles that need no directive. -/
def defaultHandles : Handles :=
  [(['!'], Text.octetsOf ['!']), (['!', '!'], Text.octetsOf "tag:yaml.org,2002:".toList)]

/-- The octets of a full tag. -/
def resolveTag (handles : Handles) (tag : TagText) : Except Fault (List UInt8) :=
  if tag.handle.isEmpty then .ok tag.suffix
  else
    match handles.lookup tag.handle with
    | some start => .ok (start ++ tag.suffix)
    | none => .error .badDirective

/-! ### Properties -/

/-- The anchor and the tag in front of a node, in either order, as they are written. -/
def takeProperties : List Token → Option (List Char) × Option TagText × List Token
  | .anchor name :: .tag tag :: rest => (some name, some tag, rest)
  | .tag tag :: .anchor name :: rest => (some name, some tag, rest)
  | .anchor name :: rest => (some name, none, rest)
  | .tag tag :: rest => (none, some tag, rest)
  | rest => (none, none, rest)

/-- Reads the properties in front of a node and defines the anchor among them. -/
def readProperties (handles : Handles) (stream : TokenStream) :
    Except Fault (Properties × TokenStream) := do
  let (name, tag, rest) := takeProperties stream.tokens
  let tag ← tag.mapM (resolveTag handles)
  match name with
  | none => return (⟨none, tag⟩, stream.leaving rest)
  | some name => return (⟨some stream.nextAnchor, tag⟩, (stream.leaving rest).define name)

/-! ### Nodes -/

/-- Where a node stands. -/
inductive Place where
  /-- In a block. -/
  | block
  /-- In a block mapping, where the dashes of a sequence may stand at the column of the keys. -/
  | blockEntry
  /-- In a flow collection. -/
  | flow
deriving DecidableEq, Repr

/-- Whether nothing is written at a place in front of these tokens, by the tokens that show it. -/
def isMissing (shown : Token → Bool) : List Token → Bool
  | [] => false
  | token :: _ => shown token

/-- Whether a token shows that an entry of a block mapping is at its end. -/
def endsBlockEntry : Token → Bool
  | .key | .value | .blockEnd => true
  | _ => false

/-- Whether a token shows that an item of a block sequence is at its end. -/
def endsBlockItem : Token → Bool
  | .item | .blockEnd => true
  | _ => false

/-- Whether a token shows that an item of a sequence without indentation is at its end. -/
def endsDashItem (token : Token) : Bool :=
  endsBlockItem token || endsBlockEntry token

/-- Whether a token shows that a value in a flow mapping is at its end. -/
def endsFlowValue : Token → Bool
  | .comma | .closeMapping => true
  | _ => false

/-- Whether a token shows that a key in a flow mapping is at its end. -/
def endsFlowKey (token : Token) : Bool :=
  token == .value || endsFlowValue token

/-- Whether a token shows that a value of a single pair in a flow sequence is at its end. -/
def endsPairValue : Token → Bool
  | .comma | .closeSequence => true
  | _ => false

/-- Whether a token shows that a key of a single pair in a flow sequence is at its end. -/
def endsPairKey (token : Token) : Bool :=
  token == .value || endsPairValue token

mutual

/-- Reads a node. Every call takes a unit of fuel; a token takes at most two calls. -/
def read (handles : Handles) : Nat → Place → TokenStream → Except Fault (Node × TokenStream)
  | 0, _, _ => .error .unexpectedToken
  | fuel + 1, place, stream => do
    match stream.tokens with
    | .reference name :: rest =>
      match stream.anchors.lookup name with
      | some anchor => return (reference anchor, stream.leaving rest)
      | none => throw .unknownAnchor
    | _ =>
      let (properties, stream) ← readProperties handles stream
      match stream.tokens, place with
      | .scalar text plain :: rest, _ => return (scalar properties text plain, stream.leaving rest)
      | .openSequence :: rest, _ =>
        let (items, stream) ← readFlowItems handles fuel true (stream.leaving rest)
        return (sequence properties items, stream)
      | .openMapping :: rest, _ =>
        let (entries, stream) ← readFlowEntries handles fuel true (stream.leaving rest)
        return (mapping properties entries, stream)
      | .item :: rest, .blockEntry =>
        let (items, stream) ← readDashItems handles fuel (stream.leaving (.item :: rest))
        return (sequence properties items, stream)
      | .blockSequence :: rest, .block | .blockSequence :: rest, .blockEntry =>
        let (items, stream) ← readBlockItems handles fuel (stream.leaving rest)
        return (sequence properties items, stream)
      | .blockMapping :: rest, .block | .blockMapping :: rest, .blockEntry =>
        let (entries, stream) ← readBlockEntries handles fuel (stream.leaving rest)
        return (mapping properties entries, stream)
      | _, _ =>
        if properties = noProperties then throw .unexpectedToken
        else return (scalar properties [] true, stream)

/-- Reads a node, or the empty node if one of the tokens shows that nothing is written. -/
def readOrEmpty (handles : Handles) :
    Nat → Place → (Token → Bool) → TokenStream → Except Fault (Node × TokenStream)
  | 0, _, _, _ => .error .unexpectedToken
  | fuel + 1, place, shown, stream =>
    if isMissing shown stream.tokens then .ok (empty, stream) else read handles fuel place stream

/-- Reads the items of a block sequence to its end. -/
def readBlockItems (handles : Handles) : Nat → TokenStream → Except Fault (List Node × TokenStream)
  | 0, _ => .error .unexpectedToken
  | fuel + 1, stream => do
    match stream.tokens with
    | .item :: rest =>
      let (item, stream) ← readOrEmpty handles fuel .block endsBlockItem (stream.leaving rest)
      let (items, stream) ← readBlockItems handles fuel stream
      return (item :: items, stream)
    | .blockEnd :: rest => return ([], stream.leaving rest)
    | _ => throw .unexpectedToken

/-- Reads the items of a sequence that stands at the column of the keys around it. -/
def readDashItems (handles : Handles) : Nat → TokenStream → Except Fault (List Node × TokenStream)
  | 0, _ => .error .unexpectedToken
  | fuel + 1, stream => do
    match stream.tokens with
    | .item :: rest =>
      let (item, stream) ← readOrEmpty handles fuel .block endsDashItem (stream.leaving rest)
      let (items, stream) ← readDashItems handles fuel stream
      return (item :: items, stream)
    | _ => return ([], stream)

/-- Reads the entries of a block mapping to its end. -/
def readBlockEntries (handles : Handles) : Nat → TokenStream →
    Except Fault (List (Node × Node) × TokenStream)
  | 0, _ => .error .unexpectedToken
  | fuel + 1, stream => do
    match stream.tokens with
    | .key :: rest =>
      let (key, stream) ← readOrEmpty handles fuel .blockEntry endsBlockEntry (stream.leaving rest)
      let (value, stream) ← readBlockValue handles fuel stream
      let (entries, stream) ← readBlockEntries handles fuel stream
      return ((key, value) :: entries, stream)
    | .blockEnd :: rest => return ([], stream.leaving rest)
    | _ => throw .unexpectedToken

/-- Reads the value of an entry of a block mapping, if it has one. -/
def readBlockValue (handles : Handles) : Nat → TokenStream → Except Fault (Node × TokenStream)
  | 0, _ => .error .unexpectedToken
  | fuel + 1, stream =>
    match stream.tokens with
    | .value :: rest => readOrEmpty handles fuel .blockEntry endsBlockEntry (stream.leaving rest)
    | _ => .ok (empty, stream)

/-- Reads the items of a flow sequence to its closing bracket. An item may be a single pair. -/
def readFlowItems (handles : Handles) :
    Nat → (isFirst : Bool) → TokenStream → Except Fault (List Node × TokenStream)
  | 0, _, _ => .error .unexpectedToken
  | fuel + 1, isFirst, stream => do
    match stream.tokens with
    | .closeSequence :: rest => return ([], stream.leaving rest)
    | tokens =>
      let tokens ←
        if isFirst then pure tokens
        else
          match tokens with
          | .comma :: rest => pure rest
          | _ => throw .unexpectedToken
      match tokens with
      | .closeSequence :: rest => return ([], stream.leaving rest)
      | .key :: rest =>
        let (pair, stream) ← readPair handles fuel (stream.leaving rest)
        let (items, stream) ← readFlowItems handles fuel false stream
        return (mapping noProperties [pair] :: items, stream)
      | tokens =>
        let (item, stream) ← read handles fuel .flow (stream.leaving tokens)
        let (items, stream) ← readFlowItems handles fuel false stream
        return (item :: items, stream)

/-- Reads a single pair in a flow sequence. A token that shows that the key is empty is taken
with it. -/
def readPair (handles : Handles) : Nat → TokenStream → Except Fault ((Node × Node) × TokenStream)
  | 0, _ => .error .unexpectedToken
  | fuel + 1, stream => do
    let (key, stream) ←
      if isMissing endsPairKey stream.tokens then
        pure (empty, stream.leaving (stream.tokens.drop 1))
      else read handles fuel .flow stream
    match stream.tokens with
    | .value :: rest =>
      let (value, stream) ← readOrEmpty handles fuel .flow endsPairValue (stream.leaving rest)
      return ((key, value), stream)
    | _ => return ((key, empty), stream)

/-- Reads the entries of a flow mapping to its closing brace. An entry may be a key alone. -/
def readFlowEntries (handles : Handles) :
    Nat → (isFirst : Bool) → TokenStream →
    Except Fault (List (Node × Node) × TokenStream)
  | 0, _, _ => .error .unexpectedToken
  | fuel + 1, isFirst, stream => do
    match stream.tokens with
    | .closeMapping :: rest => return ([], stream.leaving rest)
    | tokens =>
      let tokens ←
        if isFirst then pure tokens
        else
          match tokens with
          | .comma :: rest => pure rest
          | _ => throw .unexpectedToken
      match tokens with
      | .closeMapping :: rest => return ([], stream.leaving rest)
      | .key :: rest =>
        let (key, stream) ← readOrEmpty handles fuel .flow endsFlowKey (stream.leaving rest)
        let (value, stream) ← readFlowValue handles fuel stream
        let (entries, stream) ← readFlowEntries handles fuel false stream
        return ((key, value) :: entries, stream)
      | tokens =>
        let (key, stream) ← read handles fuel .flow (stream.leaving tokens)
        let (entries, stream) ← readFlowEntries handles fuel false stream
        return ((key, empty) :: entries, stream)

/-- Reads the value of an entry of a flow mapping, if it has one. -/
def readFlowValue (handles : Handles) : Nat → TokenStream → Except Fault (Node × TokenStream)
  | 0, _ => .error .unexpectedToken
  | fuel + 1, stream =>
    match stream.tokens with
    | .value :: rest => readOrEmpty handles fuel .flow endsFlowValue (stream.leaving rest)
    | _ => .ok (empty, stream)

end

/-! ### Documents -/

/-- Reads the directives in front of a document. `versioned` tells whether the version was given,
and `declared` are the handles that were. -/
def readDirectives (versioned : Bool) (declared : Handles) :
    List Token → Except Fault (Handles × List Token)
  | .version major minor :: rest =>
    if versioned || major ≠ 1 || (minor ≠ 1 && minor ≠ 2) then .error .badDirective
    else readDirectives true declared rest
  | .tagHandle handle start :: rest =>
    if (declared.lookup handle).isSome then .error .badDirective
    else readDirectives versioned ((handle, start) :: declared) rest
  | tokens => .ok (declared ++ defaultHandles, tokens)

/-- Whether a token shows that a document has no content. -/
def endsDocument : Token → Bool
  | .version _ _ | .tagHandle _ _ | .documentStart | .documentEnd => true
  | _ => false

/-- Whether a token shows that a document does not start with its content. -/
def startsExplicitly : Token → Bool
  | .version _ _ | .tagHandle _ _ | .documentStart => true
  | _ => false

/-- Reads a node that is all of the tokens, up to marks behind it. -/
def readWhole (handles : Handles) (tokens : List Token) : Except Fault Node := do
  let (node, stream) ← read handles (2 * tokens.length + 2) .block ⟨tokens, []⟩
  match stream.tokens.dropWhile (· == .documentEnd) with
  | [] => return node
  | _ => throw .secondDocument

/-- The node that all of the tokens stand for, or none if there is no document. -/
def ofTokens? (tokens : List Token) : Except Fault (Option Node) := do
  match tokens with
  | [] => return none
  | token :: _ =>
    if startsExplicitly token then
      let (handles, rest) ← readDirectives false [] tokens
      match rest with
      | .documentStart :: rest =>
        if rest.isEmpty || isMissing endsDocument rest then
          match rest.dropWhile (· == .documentEnd) with
          | [] => return some empty
          | _ => throw .secondDocument
        else some <$> readWhole handles rest
      | _ => throw .unexpectedToken
    else some <$> readWhole defaultHandles tokens

end Node

end ApiShorthand.Yaml
