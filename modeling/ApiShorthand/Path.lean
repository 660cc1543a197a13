import ApiShorthand.Text.Identifier

/-!
# Paths

A path starts with a slash. Behind it stand slashes, literal characters, escapes of two
hexadecimal digits behind a percent sign, and placeholders: a name between braces.
-/

namespace ApiShorthand.Path

/-- Whether a character stands for itself in a path. -/
def isLiteral (c : Char) : Bool :=
  Text.isLower c || Text.isUpper c || Text.isDigit c || "._~!$&'()*+,;=:@-".toList.contains c

/-- Whether a character can stand in a placeholder of a path. -/
def isPlaceholderPart (c : Char) : Bool :=
  c != '{' && c != '}' && c != '/' && !Text.isBlank c

mutual

/-- Whether the text behind the first slash of a path is well formed. -/
def isTail : List Char → Bool
  | [] => true
  | '{' :: c :: rest => isPlaceholderPart c && isPlaceholderTail rest
  | '%' :: high :: low :: rest => Text.isHexDigit high && Text.isHexDigit low && isTail rest
  | c :: rest => (c == '/' || isLiteral c) && isTail rest

/-- Whether a text goes on with the rest of a placeholder, its closing brace, and a tail. -/
def isPlaceholderTail : List Char → Bool
  | [] => false
  | '}' :: rest => isTail rest
  | c :: rest => isPlaceholderPart c && isPlaceholderTail rest

end

/-- Whether a text is a path. -/
def isPath : List Char → Bool
  | '/' :: rest => isTail rest
  | _ => false

/-- The names between braces in any text, in order. A name has at least one character and no
brace or slash. `opened` holds what was read behind the last brace, last character first. -/
def bracedNames (opened : Option (List Char)) : List Char → List (List Char)
  | [] => []
  | '{' :: rest => bracedNames (some []) rest
  | '}' :: rest =>
    match opened with
    | some (c :: letters) => (c :: letters).reverse :: bracedNames none rest
    | _ => bracedNames none rest
  | '/' :: rest => bracedNames none rest
  | c :: rest => bracedNames (opened.map (c :: ·)) rest

/-- The list without the repetitions of earlier members. -/
def withoutRepetitions (names : List (List Char)) : List (List Char) :=
  names.foldl (fun kept name => if name ∈ kept then kept else kept ++ [name]) []

/-- The names of the placeholders of a path, each listed once. -/
def parameters (path : String) : List String :=
  (withoutRepetitions (bracedNames none path.toList)).map String.ofList

end ApiShorthand.Path
