/-!
# Faults of a YAML text

Why a text is refused. No text of these causes is ever shown, so there is no message.
-/

namespace ApiShorthand.Yaml

/-- Why a YAML text is refused. -/
inductive Fault where
  /-- A character that no YAML text may hold. -/
  | forbiddenCharacter
  /-- A token that is malformed, or stands where its kind may not. -/
  | malformedToken
  /-- A place for an implicit key was not followed by the mark of its value. -/
  | keyWithoutValue
  /-- A token that the grammar does not admit at its place. -/
  | unexpectedToken
  /-- A tag shorthand that no directive declares, or a directive given twice. -/
  | badDirective
  /-- An alias to an anchor that was not defined before. -/
  | unknownAnchor
  /-- A second document. -/
  | secondDocument
  /-- Collections nested too deeply. -/
  | tooDeep
  /-- Aliases that multiply the text beyond measure. -/
  | tooManyAliases
  /-- A tag that has no meaning here. -/
  | unknownTag
  /-- A scalar that its tag does not admit, or an integer out of range. -/
  | badScalar
  /-- A mapping key that is not a scalar. -/
  | compoundKey
deriving DecidableEq, Repr

end ApiShorthand.Yaml
