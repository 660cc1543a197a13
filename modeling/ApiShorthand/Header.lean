import ApiShorthand.Document
import ApiShorthand.Yaml.Reader

/-!
# Headers

A header is a YAML mapping whose entries come first in the finished document. A blank text and the
value null count as an empty mapping. The generated sections follow it, so it may not have them.
-/

namespace ApiShorthand

namespace Header

/-- The entries of a mapping, or of nothing. -/
def entriesOf : Json → Except Fault (List (String × Json))
  | .object entries => .ok entries
  | .null => .ok []
  | _ => .error (.header .notMapping)

/-- The entries that the text of a header stands for. -/
def read (text : String) : Except Fault (List (String × Json)) := do
  if (Text.trim text.toList).isEmpty then return []
  match Yaml.read text with
  | .ok value => entriesOf value
  | .error cause => throw (.yaml cause)

/-- Fails with the first of some sections that a header has. -/
def checkSections (entries : List (String × Json)) (sections : List String) :
    Except Fault Unit :=
  match sections.find? fun key => entries.any fun entry => entry.1 == key with
  | some key => .error (.header (.definesSection key))
  | none => .ok ()

end Header

/-- The document behind the entries of a header. -/
def Document.under (document : Document) (header : String) : Except Fault Json := do
  let entries ← Header.read header
  Header.checkSections entries (document.sections.map Prod.fst)
  return .object (entries ++ document.sections)

/-- The document of both source texts behind the entries of a header. Faults of the source texts
come before those of the header. -/
def buildDocument (header modelsText endpointsText : String) (options : Options) :
    Except Fault Json := do
  (← compile modelsText endpointsText options).under header

end ApiShorthand
