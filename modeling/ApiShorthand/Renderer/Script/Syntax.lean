import ApiShorthand.Text.Identifier

/-!
# The syntax of shell scripts

A small part of the command language of a shell: simple commands with redirections, lists of them
that depend on success, loops over words, and branches. `Script.Source.ofText` reads a script line
by line, as it is run: what stands in front of a line that cannot be read is kept.
-/

namespace ApiShorthand

namespace Script

/-! ### Words -/

/-- What stands behind a dollar sign. -/
inductive Parameter where
  /-- An argument of the script, counted from 1, or its own name. -/
  | argument (number : Nat)
  /-- All arguments of the script, each a word of its own. -/
  | arguments
  /-- All arguments of the script with spaces between them. -/
  | joined
  /-- The number of the arguments. -/
  | count
  /-- The number of the process. -/
  | process
  /-- The status of the last command. -/
  | status
  /-- A variable. -/
  | value (name : List Char)
deriving DecidableEq, Repr

/-- A piece of a word. -/
inductive Piece where
  /-- A character. -/
  | char (c : Char)
  /-- A pair of quotes, which make a word even if nothing stands between them. -/
  | quotes
  /-- A parameter, which is split into words unless it is quoted. -/
  | parameter (parameter : Parameter) (isQuoted : Bool)
deriving DecidableEq, Repr

/-- A word before parameters are put in. -/
abbrev Word := List Piece

/-- The characters of a word, if it consists of nothing else. -/
def charsOf? (word : Word) : Option (List Char) :=
  word.mapM fun
    | .char c => some c
    | _ => none

/-! ### Tokens -/

/-- What is done with a file that a redirection names. -/
inductive Direction where
  /-- Output goes to the file, which is emptied before. -/
  | write
  /-- Output goes to the end of the file. -/
  | append
  /-- Output goes where that of a descriptor goes. -/
  | duplicate
  /-- Input comes from the file. -/
  | read
deriving DecidableEq, Repr

/-- A token of a script. -/
inductive Token where
  /-- A word. -/
  | word (word : Word)
  /-- The end of a line. -/
  | newline
  /-- The end of a command on a line. -/
  | semicolon
  /-- The link to a command that runs after success, or after failure. -/
  | link (onSuccess : Bool)
  /-- The mark in front of the file for a descriptor. -/
  | redirect (descriptor : Nat) (direction : Direction)
  /-- Anything else. -/
  | other
deriving DecidableEq, Repr

/-- The token of a word of characters. -/
def plainWord (text : String) : Token :=
  .word (text.toList.map .char)

/-- Puts the word that was read, if there is one, in front of later tokens. -/
def close (word : Option Word) (later : List Token) : List Token :=
  match word with
  | some word => .word word :: later
  | none => later

/-- The word with more pieces. -/
def addPieces (word : Option Word) (pieces : List Piece) : Option Word :=
  some (word.getD [] ++ pieces)

/-- The parameter of a name or a number. -/
def namedParameter (name : List Char) : Option Parameter :=
  match name with
  | [] => none
  | first :: _ =>
    if name.all Text.isDigit then
      some (.argument (name.foldl (fun n c => 10 * n + (c.toNat - 48)) 0))
    else if Text.isNameStart first && name.all Text.isNamePart then some (.value name)
    else none

/-- The parameter of a single character. -/
def shortParameter? : Char → Option Parameter
  | '@' => some .arguments
  | '*' => some .joined
  | '#' => some .count
  | '$' => some .process
  | '?' => some .status
  | _ => none

/-- The parameter behind a dollar sign, if there is one, and the text behind it. -/
def readParameter : List Char → Option Parameter × List Char
  | [] => (none, [])
  | c :: rest =>
    if let some parameter := shortParameter? c then (some parameter, rest)
    else if Text.isDigit c then (some (.argument (c.toNat - 48)), rest)
    else if Text.isNameStart c then
      (some (.value (c :: rest.takeWhile Text.isNamePart)), rest.dropWhile Text.isNamePart)
    else if c == '{' then
      let name := rest.takeWhile (· ≠ '}')
      let behind := (rest.dropWhile (· ≠ '}')).drop 1
      match name with
      | [special] =>
        match shortParameter? special with
        | some parameter => (some parameter, behind)
        | none => (namedParameter name, behind)
      | _ => (namedParameter name, behind)
    else (none, c :: rest)

/-- The word with what stands behind a dollar sign, and the text behind it. -/
def addParameter (isQuoted : Bool) (word : Option Word) (text : List Char) :
    Option Word × List Char :=
  match readParameter text with
  | (some parameter, rest) => (addPieces word [.parameter parameter isQuoted], rest)
  | (none, rest) => (addPieces word [.char '$'], rest)

/-- The mark of a redirection behind its first character, and the text behind it. -/
def readDirection (c : Char) : List Char → Direction × List Char
  | '>' :: rest => if c == '>' then (.append, rest) else (.read, '>' :: rest)
  | '&' :: rest => if c == '>' then (.duplicate, rest) else (.read, '&' :: rest)
  | '|' :: rest => if c == '>' then (.write, rest) else (.read, '|' :: rest)
  | rest => (if c == '>' then .write else .read, rest)

/-- The descriptor that a word in front of a redirection names, and the word if it names none. -/
def splitDescriptor (default : Nat) (word : Option Word) : Nat × Option Word :=
  match word.bind charsOf? with
  | some [digit] =>
    if Text.isDigit digit then (digit.toNat - 48, none) else (default, word)
  | _ => (default, word)

/-- Whether a backslash in double quotes takes its meaning from a character. -/
def isEscapable (c : Char) : Bool :=
  c == '$' || c == '"' || c == '\\' || c.toNat == 0x60

/-- The tokens of a text, with a unit of fuel for each. Double quotes keep blanks in a word, single
quotes everything. -/
def tokens : Nat → (quote : Option Char) → Option Word → List Char → List Token
  | 0, _, word, _ => close word []
  | _ + 1, none, word, [] => close word []
  | _ + 1, some _, _, [] => [.other]
  | fuel + 1, some quote, word, c :: rest =>
    if c == quote then tokens fuel none word rest
    else if quote == '\'' then tokens fuel (some quote) (addPieces word [.char c]) rest
    else if c == '$' then
      let (word, rest) := addParameter true word rest
      tokens fuel (some quote) word rest
    else if c == '\\' then
      match rest with
      | '\n' :: rest => tokens fuel (some quote) word rest
      | next :: behind =>
        if isEscapable next then tokens fuel (some quote) (addPieces word [.char next]) behind
        else tokens fuel (some quote) (addPieces word [.char c]) rest
      | [] => [.other]
    else tokens fuel (some quote) (addPieces word [.char c]) rest
  | fuel + 1, none, word, c :: rest =>
    let ending (token : Token) (rest : List Char) : List Token :=
      close word (token :: tokens fuel none none rest)
    if c == '"' || c == '\'' then tokens fuel (some c) (addPieces word [.quotes]) rest
    else if c == '$' then
      let (word, rest) := addParameter false word rest
      tokens fuel none word rest
    else if c == '\\' then
      match rest with
      | '\n' :: rest => tokens fuel none word rest
      | next :: rest => tokens fuel none (addPieces word [.quotes, .char next]) rest
      | [] => tokens fuel none (addPieces word [.char c]) []
    else if c == ' ' || c == '\t' then close word (tokens fuel none none rest)
    else if c == '\n' then ending .newline rest
    else if c == ';' then ending .semicolon rest
    else if c == '&' || c == '|' then
      match rest with
      | next :: behind =>
        if next == c then ending (.link (c == '&')) behind else ending .other rest
      | [] => ending .other []
    else if c == '>' || c == '<' then
      let (descriptor, word) := splitDescriptor (if c == '>' then 1 else 0) word
      let (direction, rest) := readDirection c rest
      close word (.redirect descriptor direction :: tokens fuel none none rest)
    else if c == '(' || c == ')' || c.toNat == 0x60 then ending .other rest
    else if c == '#' && word.isNone then tokens fuel none none (rest.dropWhile (· ≠ '\n'))
    else tokens fuel none (addPieces word [.char c]) rest

/-! ### Statements -/

/-- A redirection. -/
structure Redirect where
  /-- The descriptor: 0 for input, 1 for output. -/
  descriptor : Nat
  /-- What is done with the file. -/
  direction : Direction
  /-- The file. -/
  target : Word
deriving DecidableEq, Repr

/-- A statement. -/
inductive Statement where
  /-- A command with its arguments, behind variables that are set. -/
  | run (assignments : List (List Char × Word)) (words : List Word) (redirects : List Redirect)
  /-- Statements for each of some words. -/
  | each (name : List Char) (items : List Word) (body : List Statement)
    (redirects : List Redirect)
  /-- Statements that run if others succeed, and those that run if not. -/
  | choose (condition body otherwise : List Statement) (redirects : List Redirect)
  /-- Statements that are redirected together. -/
  | group (body : List Statement) (redirects : List Redirect)
  /-- A statement, and one that runs only if it succeeds, or only if it fails. -/
  | chain (first : Statement) (onSuccess : Bool) (second : Statement)
  /-- A statement whose success is a failure. -/
  | negate (statement : Statement)

/-- The words that close a part of a statement. -/
def closers : List Token :=
  ["do", "done", "then", "elif", "else", "fi", "\x7d"].map plainWord

/-- The tokens behind those that only separate lines. -/
def skipNewlines (tokens : List Token) : List Token :=
  tokens.dropWhile (· == .newline)

/-- The words and redirections at the start of tokens, and the tokens behind them. -/
def takeWords : List Token → List Word × List Redirect × List Token
  | .word word :: rest =>
    let (words, redirects, rest) := takeWords rest
    (word :: words, redirects, rest)
  | .redirect descriptor direction :: .word target :: rest =>
    let (words, redirects, rest) := takeWords rest
    (words, ⟨descriptor, direction, target⟩ :: redirects, rest)
  | tokens => ([], [], tokens)

/-- The name and the value of a word that sets a variable. -/
def assignment? (word : Word) : Option (List Char × Word) := do
  let name ← charsOf? (word.takeWhile (· ≠ .char '='))
  let _ :: value := word.dropWhile (· ≠ .char '=') | none
  let first :: _ := name | none
  if Text.isNameStart first && name.all Text.isNamePart then some (name, value) else none

/-- The simple command of words, the first of which may set variables. -/
def simpleCommand (words : List Word) (redirects : List Redirect) : Statement :=
  let isAssignment (word : Word) : Bool := (assignment? word).isSome
  .run ((words.takeWhile isAssignment).filterMap assignment?) (words.dropWhile isAssignment)
    redirects

/-- The words of a loop, which are the arguments of the script if none are given, and the tokens
behind them. -/
def readItems (tokens : List Token) : Option (List Word × List Token) :=
  match skipNewlines tokens with
  | first :: rest =>
    if first = plainWord "in" then
      match takeWords rest with
      | (words, [], .semicolon :: rest) | (words, [], .newline :: rest) => some (words, rest)
      | _ => none
    else some ([[.parameter .arguments true]], first :: rest)
  | [] => none

mutual

/-- The statements of a line, or of a block up to the word that closes it, and the tokens behind
them. Each step into a statement takes a unit of fuel. -/
def readList : Nat → (inBlock : Bool) → List Token → Option (List Statement × List Token)
  | 0, _, _ => none
  | fuel + 1, inBlock, tokens =>
    match if inBlock then skipNewlines tokens else tokens with
    | [] => if inBlock then none else some ([], [])
    | first :: rest =>
      if first = .newline || (inBlock && closers.contains first) then some ([], first :: rest)
      else do
        let (statement, rest) ← readChain fuel (first :: rest)
        match rest with
        | .semicolon :: rest =>
          let (later, rest) ← readList fuel inBlock rest
          some (statement :: later, rest)
        | .newline :: _ =>
          if inBlock then
            let (later, rest) ← readList fuel inBlock rest
            some (statement :: later, rest)
          else some ([statement], rest)
        | [] => if inBlock then none else some ([statement], [])
        | next :: _ => if inBlock && closers.contains next then some ([statement], rest) else none

/-- Statements that depend on each other's success. -/
def readChain : Nat → List Token → Option (Statement × List Token)
  | 0, _ => none
  | fuel + 1, tokens => do
    let (first, rest) ← readStatement fuel tokens
    readLinks fuel first rest

/-- The statements that depend on the success of a first one. -/
def readLinks : Nat → Statement → List Token → Option (Statement × List Token)
  | 0, _, _ => none
  | fuel + 1, first, tokens =>
    match tokens with
    | .link onSuccess :: rest => do
      let (second, rest) ← readStatement fuel (skipNewlines rest)
      readLinks fuel (.chain first onSuccess second) rest
    | _ => some (first, tokens)

/-- A block of at least one statement between two words. -/
def readBlock : Nat → (opening : String) → List Token → Option (List Statement × List Token)
  | 0, _, _ => none
  | fuel + 1, opening, tokens => do
    let first :: rest := tokens | none
    if first ≠ plainWord opening then none
    let (body, rest) ← readList fuel true rest
    if body.isEmpty then none else some (body, rest)

/-- What stands behind the body of a branch, up to the word that ends it. -/
def readOtherwise : Nat → List Token → Option (List Statement × List Token)
  | 0, _ => none
  | fuel + 1, tokens => do
    let first :: rest := tokens | none
    if first = plainWord "fi" then some ([], rest)
    else if first = plainWord "elif" then
      let (condition, rest) ← readBlock fuel "elif" tokens
      let (body, rest) ← readBlock fuel "then" rest
      let (otherwise, rest) ← readOtherwise fuel rest
      some ([.choose condition body otherwise []], rest)
    else
      let (otherwise, rest) ← readBlock fuel "else" tokens
      let last :: rest := rest | none
      if last = plainWord "fi" then some (otherwise, rest) else none

/-- A statement, and the tokens behind it. -/
def readStatement : Nat → List Token → Option (Statement × List Token)
  | 0, _ => none
  | fuel + 1, tokens => do
    let first :: rest := tokens | none
    if closers.contains first then none
    else if first = plainWord "!" then
      if rest.head? = some first then none
      let (statement, rest) ← readStatement fuel rest
      some (.negate statement, rest)
    else if first = plainWord "if" then
      let (condition, rest) ← readBlock fuel "if" tokens
      let (body, rest) ← readBlock fuel "then" rest
      let (otherwise, rest) ← readOtherwise fuel rest
      let (_, redirects, rest) := takeWords rest
      some (.choose condition body otherwise redirects, rest)
    else if first = plainWord "\x7b" then
      let (body, rest) ← readBlock fuel "\x7b" tokens
      let last :: rest := rest | none
      if last ≠ plainWord "\x7d" then none
      let (_, redirects, rest) := takeWords rest
      some (.group body redirects, rest)
    else if first = plainWord "for" then
      let .word name :: rest := rest | none
      let name ← charsOf? name
      let (items, rest) ← readItems rest
      let (body, rest) ← readBlock fuel "do" (skipNewlines rest)
      let last :: rest := rest | none
      if last ≠ plainWord "done" then none
      let (_, redirects, rest) := takeWords rest
      some (.each name items body redirects, rest)
    else
      let (words, redirects, rest) := takeWords tokens
      if words.isEmpty && redirects.isEmpty then none
      else some (simpleCommand words redirects, rest)
end

/-! ### Scripts -/

/-- The statements that are run, and whether the script can be read to its end. -/
structure Source where
  /-- The statements in front of the first line that cannot be read. -/
  statements : List Statement
  /-- Whether there is no such line. -/
  isComplete : Bool

/-- The source of tokens, with a unit of fuel for each line. -/
def readLines (limit : Nat) : Nat → List Token → Source
  | 0, _ => ⟨[], true⟩
  | fuel + 1, tokens =>
    match skipNewlines tokens with
    | [] => ⟨[], true⟩
    | tokens =>
      match readList limit false tokens with
      | none => ⟨[], false⟩
      | some (statements, rest) =>
        let later := readLines limit fuel rest
        { later with statements := statements ++ later.statements }

/-- The source of a text. -/
def Source.ofText (text : List Char) : Source :=
  let tokens := tokens (text.length + 1) none none text
  -- every token leads through at most six readers
  readLines (6 * tokens.length + 6) (tokens.length + 1) tokens

end Script

end ApiShorthand
