import ApiShorthand.Proofs.Outcome
import ApiShorthand.Proofs.Text.Word
import ApiShorthand.TypeRef

/-!
# The grammar of type tokens

`TypeToken token type` is the grammar: a scalar keyword, a model name, or either one in brackets
with white space inside them. `TypeRef.read` accepts exactly these tokens
(`TypeRef.read_eq_ok_iff`).
-/

namespace ApiShorthand

open Text

namespace Grammar

/-- A scalar keyword, or a word that starts with an ASCII capital letter, which names a model. -/
inductive ElementToken : List Char → TypeRef → Prop where
  /-- The keyword of a scalar kind. -/
  | scalar (kind : ScalarKind) : ElementToken kind.keyword.toList (.scalar kind)
  /-- The name of a model. -/
  | model {c : Char} {rest : List Char} (hc : c.isUpper = true)
      (hrest : ∀ d ∈ rest, d.isAlphanum = true ∨ d = '_') :
      ElementToken (c :: rest) (.model (String.ofList (c :: rest)))

/-- A type as it is written: an element, or the brackets of an array around one. -/
inductive TypeToken : List Char → TypeRef → Prop where
  /-- A scalar or a model. -/
  | element {token : List Char} {type : TypeRef} (h : ElementToken token type) :
      TypeToken token type
  /-- An array of a scalar or of a model. -/
  | array {before token after : List Char} {item : TypeRef} (hbefore : IsBlankText before)
      (h : ElementToken token item) (hafter : IsBlankText after) :
      TypeToken ('[' :: (before ++ (token ++ after) ++ [']'])) (.array item)

/-! ### Elements -/

theorem ElementToken.isIdentifier {token : List Char} {type : TypeRef}
    (h : ElementToken token type) : IsIdentifier token := by
  cases h with
  | scalar kind =>
    have hletters : kind.keyword.toList ≠ [] ∧ kind.keyword.toList.all Char.isAlpha = true := by
      cases kind <;> decide
    exact isIdentifier_of_all_isAlpha hletters.1 hletters.2
  | @model c rest hc hrest => exact ⟨c, rest, rfl, Or.inl (by rw [isAlpha_eq, hc]; rfl), hrest⟩

theorem ElementToken.head_ne {token : List Char} {type : TypeRef} (h : ElementToken token type) :
    token.head? ≠ some '[' := by
  obtain ⟨c, rest, rfl, hc, -⟩ := h.isIdentifier
  intro hbracket
  cases Option.some.inj hbracket
  revert hc
  decide

/-- A token has no white space around it. -/
theorem TypeToken.isTrimmed {token : List Char} {type : TypeRef} (h : TypeToken token type) :
    IsTrimmed token := by
  cases h with
  | element h => exact h.isIdentifier.isWord.isTrimmed
  | array hbefore h hafter =>
    refine ⟨fun c hc => ?_, fun c hc => ?_⟩
    · cases Option.mem_some.1 hc
      decide
    · rw [← List.cons_append, List.getLast?_concat] at hc
      cases Option.mem_some.1 hc
      decide

theorem TypeToken.ne_nil {token : List Char} {type : TypeRef} (h : TypeToken token type) :
    token ≠ [] := by
  cases h with
  | element h => exact h.isIdentifier.isWord.ne_nil
  | array hbefore h hafter => exact List.cons_ne_nil _ _

end Grammar

namespace TypeRef

open Grammar

theorem isWordFrom_isLower_keyword (kind : ScalarKind) :
    isWordFrom isLower kind.keyword.toList = true := by
  cases kind with
  | string => decide
  | integer => decide
  | number => decide
  | boolean => decide
  | object => decide
  | datetime => decide

theorem isWordFrom_isUpper_iff {token : List Char} :
    isWordFrom isUpper token = true ↔ ∃ c rest, token = c :: rest ∧ c.isUpper = true ∧
      ∀ d ∈ rest, d.isAlphanum = true ∨ d = '_' := by
  cases token with
  | nil => exact iff_of_false nofun nofun
  | cons c rest =>
    rw [isWordFrom, Bool.and_eq_true, isUpper_eq, List.all_eq_true]
    constructor
    · rintro ⟨hc, hrest⟩
      exact ⟨c, rest, rfl, hc, fun d hd => isNamePart_iff.1 (hrest d hd)⟩
    · rintro ⟨c', rest', heq, hc, hrest⟩
      cases heq
      exact ⟨hc, fun d hd => isNamePart_iff.2 (hrest d hd)⟩

/-- No capital letter is a lower-case letter. -/
theorem isLower_of_isUpper {c : Char} (h : c.isUpper = true) : isLower c = false := by
  rw [← isUpper_eq] at h
  simp only [isUpper, isLower, Bool.and_eq_true, Bool.and_eq_false_iff, decide_eq_true_eq,
    decide_eq_false_iff_not, Char.le_def, UInt32.le_iff_toNat_le] at h ⊢
  left
  have hz : 'Z'.val.toNat = 90 := rfl
  have ha : 'a'.val.toNat = 97 := rfl
  omega

theorem readElement_eq_ok_iff {token : List Char} {type : TypeRef} :
    readElement token = .ok type ↔ ElementToken token type := by
  constructor
  · intro h
    unfold readElement at h
    split_ifs at h with hlower hupper
    · split at h
      · rename_i kind hkind
        cases h
        rw [ScalarKind.ofKeyword?_eq_some_iff.1 hkind]
        exact .scalar kind
      · cases h
    · cases h
      obtain ⟨c, rest, rfl, hc, hrest⟩ := isWordFrom_isUpper_iff.1 hupper
      exact .model hc hrest
  · intro h
    unfold readElement
    cases h with
    | scalar kind =>
      rw [if_pos (isWordFrom_isLower_keyword kind), ScalarKind.ofKeyword?_eq_some_iff.2 rfl]
    | @model c rest hc hrest =>
      have hlower : ¬ isWordFrom isLower (c :: rest) = true := by
        rw [isWordFrom, isLower_of_isUpper hc, Bool.false_and]
        decide
      rw [if_neg hlower, if_pos (isWordFrom_isUpper_iff.2 ⟨c, rest, rfl, hc, hrest⟩)]

/-! ### Arrays -/

theorem bracketed?_eq_some_iff {token inner : List Char} :
    bracketed? token = some inner ↔
      ∃ content, token = '[' :: (content ++ [']']) ∧ trim content = inner ∧ '\n' ∉ inner := by
  constructor
  · intro h
    unfold bracketed? at h
    split at h
    · rename_i rest
      split at h
      · rename_i hlast
        dsimp only at h
        split at h
        · cases h
        · rename_i hfeed
          cases h
          refine ⟨rest.dropLast, ?_, rfl, hfeed⟩
          rw [List.dropLast_append_getLast? _ hlast]
      · cases h
    · cases h
  · rintro ⟨content, rfl, rfl, hfeed⟩
    rw [bracketed?, List.getLast?_concat, if_pos rfl, List.dropLast_concat, if_neg hfeed]

theorem bracketed?_eq_none {token : List Char} (h : token.head? ≠ some '[') :
    bracketed? token = none := by
  by_contra hsome
  obtain ⟨inner, hinner⟩ := Option.ne_none_iff_exists'.1 hsome
  obtain ⟨content, rfl, -⟩ := bracketed?_eq_some_iff.1 hinner
  exact h rfl

/-- **Reading a type** accepts exactly the tokens of the grammar. -/
theorem read_eq_ok_iff {token : List Char} {type : TypeRef} :
    read token = .ok type ↔ TypeToken token type := by
  constructor
  · intro h
    unfold read at h
    split at h
    · exact .element (readElement_eq_ok_iff.1 h)
    · rename_i inner hinner
      -- the white space that was trimmed stands on both sides of the element
      obtain ⟨content, rfl, rfl, -⟩ := bracketed?_eq_some_iff.1 hinner
      split at h
      · cases h
      · obtain ⟨item, hitem, rfl⟩ := Except.map_eq_ok_iff.1 h
        obtain ⟨after, hafter, hcontent⟩ := exists_eq_trim content
        rw [hcontent]
        exact .array (isBlankText_indentation content) (readElement_eq_ok_iff.1 hitem) hafter
  · intro h
    unfold read
    cases h with
    | element h =>
      rw [bracketed?_eq_none h.head_ne]
      exact readElement_eq_ok_iff.2 h
    | @array before token after item hbefore h hafter =>
      have hword := h.isIdentifier.isWord
      -- an element holds no line feed, whatever the white space around it holds
      have hfeed : '\n' ∉ token := fun hmem => absurd (hword.visible _ hmem) (by decide)
      have hinner := bracketed?_eq_some_iff.2
        ⟨before ++ (token ++ after), rfl, trim_eq hbefore hword.isTrimmed hafter, hfeed⟩
      rw [hinner]
      dsimp only
      rw [if_neg h.head_ne]
      exact Except.map_eq_ok_iff.2 ⟨item, readElement_eq_ok_iff.2 h, rfl⟩

end TypeRef

end ApiShorthand
