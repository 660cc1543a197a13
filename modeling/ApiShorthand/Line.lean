import ApiShorthand.Fault
import ApiShorthand.Text.Blank

/-!
# Structural lines

A source text is a sequence of physical lines. Blank lines and comments carry no structure; every
other line has a depth, which its indentation of two spaces a level gives. `LineStream` yields the
structural lines one at a time, up to and including the first bad one.
-/

namespace ApiShorthand

/-- The kind of a line, by its own text alone. -/
inductive LineKind where
  /-- A line that starts at the margin. -/
  | header
  /-- An indented line. -/
  | continuation
  /-- A line of white space. -/
  | blank
  /-- A line whose first two visible characters are slashes. -/
  | comment
deriving DecidableEq, Repr

/-- A structural line. -/
structure Line where
  /-- The number of the physical line, from 1. -/
  number : Nat
  /-- The level of indentation. -/
  depth : Nat
  /-- The kind of the line. -/
  kind : LineKind
  /-- The text without the white space around it. -/
  text : String
deriving DecidableEq, Repr

/-! ### Physical lines -/

/-- Puts a character before the first of the lines. -/
def prependToFirst (c : Char) : List (List Char) → List (List Char)
  | [] => [[c]]
  | first :: rest => (c :: first) :: rest

/-- The physical lines of a text. Each ends at a line feed, together with one carriage return
before it; what stands behind the last line feed is a line if it is not empty. -/
def physicalLines : List Char → List (List Char)
  | [] => []
  | '\n' :: rest => [] :: physicalLines rest
  | '\r' :: '\n' :: rest => [] :: physicalLines rest
  | c :: rest => prependToFirst c (physicalLines rest)

/-- The lines with their numbers, counted from `number` on. -/
def numberFrom (number : Nat) : List (List Char) → List (Nat × List Char)
  | [] => []
  | raw :: rest => (number, raw) :: numberFrom (number + 1) rest

/-! ### One line -/

namespace LineKind

/-- The kind of a physical line. -/
def ofChars (raw : List Char) : LineKind :=
  match Text.trim raw with
  | [] => blank
  | '/' :: '/' :: _ => comment
  | _ =>
    match raw with
    | c :: _ => if Text.isBlank c then continuation else header
    | [] => header

/-- The kind of a physical line. -/
def classify (raw : String) : LineKind :=
  ofChars raw.toList

/-- Whether lines of this kind carry structure. -/
def isStructural : LineKind → Bool
  | header => true
  | continuation => true
  | blank => false
  | comment => false

end LineKind

namespace Line

/-- The depth that an indentation gives after a line of depth `previous`, or what is wrong with
it. A tab is reported before other white space, that before an odd width, and that before a jump. -/
def depthOf (previous : Nat) (indentation : List Char) : Except LineProblem Nat :=
  if '\t' ∈ indentation then .error .tabIndentation
  else if indentation.any (· != ' ') then .error .blankIndentation
  else if indentation.length % 2 ≠ 0 then .error .oddIndentation
  else if indentation.length / 2 > previous + 1 then .error .indentationJump
  else .ok (indentation.length / 2)

/-- The fault of a problem on a line with this number and text. -/
def faultAt (number : Nat) (text : String) (problem : LineProblem) : Fault :=
  .line problem number text

/-- The fault of a problem on this line. -/
def fault (line : Line) (problem : LineProblem) : Fault :=
  faultAt line.number line.text problem

/-- Reads a physical line that carries structure, after a line of depth `previous`. -/
def read (previous number : Nat) (raw : List Char) : Except Fault Line :=
  let text := String.ofList (Text.trim raw)
  match depthOf previous (Text.indentation raw) with
  | .ok depth => .ok { number, depth, kind := .ofChars raw, text }
  | .error problem => .error (faultAt number text problem)

end Line

/-! ### Streams of lines -/

/-- What is left to read of a source text. -/
structure LineStream where
  /-- The physical lines that were not read yet, with their numbers. -/
  pending : List (Nat × List Char)
  /-- The depth of the last line that was yielded. -/
  depth : Nat
deriving DecidableEq, Repr

namespace LineStream

/-- The stream over a whole text. -/
def ofString (text : String) : LineStream where
  pending := numberFrom 1 (physicalLines text.toList)
  depth := 0

/-- The next item among pending lines, after a line of depth `depth`, and what is left then.
After a fault nothing is left. -/
def nextIn (depth : Nat) : List (Nat × List Char) → Option (Except Fault Line × LineStream)
  | [] => none
  | (number, raw) :: rest =>
    if (LineKind.ofChars raw).isStructural then
      match Line.read depth number raw with
      | .ok line => some (.ok line, ⟨rest, line.depth⟩)
      | .error fault => some (.error fault, ⟨[], depth⟩)
    else nextIn depth rest

/-- The next item and the stream behind it, unless the stream is at its end. -/
def next? (stream : LineStream) : Option (Except Fault Line × LineStream) :=
  nextIn stream.depth stream.pending

/-- All items among pending lines, after a line of depth `depth`. -/
def itemsIn (depth : Nat) : List (Nat × List Char) → List (Except Fault Line)
  | [] => []
  | (number, raw) :: rest =>
    if (LineKind.ofChars raw).isStructural then
      match Line.read depth number raw with
      | .ok line => .ok line :: itemsIn line.depth rest
      | .error fault => [.error fault]
    else itemsIn depth rest

/-- All items that a stream has left. -/
def toList (stream : LineStream) : List (Except Fault Line) :=
  itemsIn stream.depth stream.pending

/-- The stream at its end. -/
def exhausted (stream : LineStream) : LineStream :=
  { stream with pending := [] }

end LineStream

/-- All items of a text. -/
def tokenize (text : String) : List (Except Fault Line) :=
  (LineStream.ofString text).toList

/-! ### Laws -/

namespace LineStream

/-- The items of a stream are its next item and the items behind that. -/
theorem toList_eq (stream : LineStream) :
    stream.toList =
      match stream.next? with
      | none => []
      | some (item, rest) => item :: rest.toList := by
  obtain ⟨pending, depth⟩ := stream
  simp only [toList, next?]
  induction pending with
  | nil => rfl
  | cons entry rest ih =>
    obtain ⟨number, raw⟩ := entry
    simp only [itemsIn, nextIn]
    split
    · cases Line.read depth number raw <;> simp [itemsIn]
    · exact ih

end LineStream

end ApiShorthand
