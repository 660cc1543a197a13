import ApiShorthand.Yaml.Spot

/-!
# Block scalars

Scalars whose lines stand under an indicator. Their indentation is given, or is that of the first
line with content; their line breaks are kept, or folded between two lines that start with content;
those at the end are clipped to one, removed or kept.
-/

namespace ApiShorthand.Yaml

/-- What becomes of the line breaks at the end of a block scalar. -/
inductive Chomping where
  /-- One is kept. -/
  | clip
  /-- None is kept. -/
  | strip
  /-- All are kept. -/
  | keep
deriving DecidableEq, Repr

/-- What stands behind the indicator of a block scalar. -/
structure BlockHeader where
  /-- What becomes of the line breaks at the end. -/
  chomping : Chomping
  /-- How much deeper than the collection around it the scalar stands, if that is given. -/
  increment : Option Nat
deriving DecidableEq, Repr

namespace BlockHeader

/-- The chomping that a character stands for. -/
def chomping? : Char → Option Chomping
  | '+' => some .keep
  | '-' => some .strip
  | _ => none

/-- The chomping that comes next, and the text behind it. -/
def readChomping : List Spot → Chomping × List Spot
  | [] => (.clip, [])
  | s :: rest =>
    match chomping? s.char with
    | some chomping => (chomping, rest)
    | none => (.clip, s :: rest)

/-- The digit that comes next, which is not zero, and the text behind it. -/
def readIncrement : List Spot → Except Fault (Option Nat × List Spot)
  | [] => .ok (none, [])
  | s :: rest =>
    if s.char == '0' then .error .malformedToken
    else if Text.isDigit s.char then .ok (some (s.char.toNat - 48), rest)
    else .ok (none, s :: rest)

/-- Reads the header of a block scalar to the end of its line. Chomping and increment may stand in
either order. -/
def read (text : List Spot) : Except Fault (BlockHeader × List Spot) := do
  match text with
  | [] => return (⟨.clip, none⟩, [])
  | s :: rest =>
    match chomping? s.char with
    | some chomping =>
      let (increment, rest) ← readIncrement rest
      return (⟨chomping, increment⟩, ← Spot.finishLine rest)
    | none =>
      let (increment, rest) ← readIncrement (s :: rest)
      match increment with
      | none => return (⟨.clip, none⟩, ← Spot.finishLine rest)
      | some _ =>
        let (chomping, rest) := readChomping rest
        return (⟨chomping, increment⟩, ← Spot.finishLine rest)

end BlockHeader

namespace BlockScalar

/-- Indentation and empty lines in front of a line with content. -/
structure Margin where
  /-- The line breaks of the empty lines. -/
  breaks : List Char
  /-- The greatest column that was reached. -/
  deepest : Nat
  /-- The text behind the indentation. -/
  rest : List Spot
deriving DecidableEq, Repr

/-- Whether a column belongs to the indentation; it does while none is fixed. -/
def isMargin (indent : Option Nat) (column : Nat) : Bool :=
  match indent with
  | none => true
  | some indent => column < indent

/-- Reads indentation and empty lines. A tab must not stand in the indentation. -/
def readMargin (indent : Option Nat) (deepest : Nat) : List Spot → Except Fault Margin
  | [] => .ok ⟨[], deepest, []⟩
  | s :: rest =>
    if s.char == ' ' && isMargin indent s.column then readMargin indent deepest rest
    else if s.char == '\t' && isMargin indent s.column then .error .malformedToken
    else if isBreak s.char then
      (readMargin indent (max deepest s.column) rest).map fun margin =>
        { margin with breaks := s.char :: margin.breaks }
    else .ok ⟨[], max deepest s.column, s :: rest⟩

/-- The line break, if one comes next, and the text behind it. -/
def takeBreak : List Spot → List Char × List Spot
  | [] => ([], [])
  | s :: rest => ([s.char], rest)

/-- The line breaks between two lines: the first one is folded if both lines start with content,
and becomes a space if it is the only one. -/
def join (folds : Bool) (first later : List Char) : List Char :=
  if folds && first == ['\n'] then (if later.isEmpty then [' '] else later) else first ++ later

/-- The line breaks that are kept at the end. -/
def chomp (chomping : Chomping) (first later : List Char) : List Char :=
  match chomping with
  | .strip => []
  | .clip => first
  | .keep => first ++ later

/-- The lines at column `indent`. `first` is the line break of the line before and `later` are
those of the empty lines behind it; `indented` tells whether that line started with a blank. Each
line takes a unit of fuel. -/
def readLines (literal : Bool) (chomping : Chomping) (indent : Nat) :
    Nat → (first later : List Char) → (indented : Bool) → List Spot →
      Except Fault (List Char × List Spot)
  | 0, _, _, _, text => .ok ([], text)
  | _ + 1, first, later, _, [] => .ok (chomp chomping first later, [])
  | fuel + 1, first, later, indented, s :: rest => do
    if s.column = indent then
      let startsBlank := isBlank s.char
      let (lineBreak, next) := takeBreak (Spot.skip (fun c => !isBreak c) (s :: rest))
      let margin ← readMargin (some indent) 0 next
      let (content, behind) ←
        readLines literal chomping indent fuel lineBreak margin.breaks startsBlank margin.rest
      let line := Spot.taken (fun c => !isBreak c) (s :: rest)
      return (join (!literal && !indented && !startsBlank) first later ++ line ++ content, behind)
    else return (chomp chomping first later, s :: rest)

/-- Reads a block scalar behind its indicator; `outer` is the column of the collection around it.
The first line is joined to nothing. -/
def read (literal : Bool) (outer : Int) (text : List Spot) :
    Except Fault (List Char × List Spot) := do
  let (header, text) ← BlockHeader.read text
  let given := header.increment.map fun n => (max outer 0).toNat + n
  let margin ← readMargin given 0 text
  let indent := given.getD (max margin.deepest (max (outer + 1).toNat 1))
  readLines literal header.chomping indent (margin.rest.length + 1) [] margin.breaks false
    margin.rest

end BlockScalar

end ApiShorthand.Yaml
