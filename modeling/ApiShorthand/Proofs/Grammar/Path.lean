import ApiShorthand.Path
import ApiShorthand.Proofs.Text.Word

/-!
# The grammar of paths

A path is a slash and then a sequence of pieces: slashes, literal characters, escapes and
placeholders. `isPath` accepts exactly these texts (`isPath_iff`).
-/

namespace ApiShorthand.Path

open Text

/-- An ASCII letter or digit, or one of the marks that stand for themselves in a path. -/
def LiteralChar (c : Char) : Prop :=
  c.isAlphanum = true ∨ c ∈ "._~!$&'()*+,;=:@-".toList

/-- A character that the name of a placeholder can hold. -/
def PlaceholderChar (c : Char) : Prop :=
  c ∉ ['{', '}', '/'] ∧ isBlank c = false

/-- A piece of a path behind its first slash. -/
inductive Piece where
  /-- A slash. -/
  | slash
  /-- A character that stands for itself. -/
  | literal (c : Char) (h : LiteralChar c)
  /-- An escape: a percent sign and two hexadecimal digits. -/
  | escape (high low : Char) (hhigh : high.isHexDigit = true) (hlow : low.isHexDigit = true)
  /-- A placeholder: a name between braces. -/
  | placeholder (name : List Char) (hne : name ≠ []) (h : ∀ c ∈ name, PlaceholderChar c)

/-- How a piece is written. -/
def Piece.text : Piece → List Char
  | slash => ['/']
  | literal c _ => [c]
  | escape high low _ _ => ['%', high, low]
  | placeholder name _ _ => '{' :: (name ++ ['}'])

/-- A path of the grammar. -/
def IsPathText (text : List Char) : Prop :=
  ∃ pieces : List Piece, text = '/' :: pieces.flatMap Piece.text

/-! ### Characters -/

theorem isLiteral_iff {c : Char} : isLiteral c = true ↔ LiteralChar c := by
  rw [isLiteral, LiteralChar, Bool.or_eq_true, Bool.or_eq_true, Bool.or_eq_true, isLower_eq,
    isUpper_eq, isDigit_eq, Char.isAlphanum, isAlpha_eq, Bool.or_eq_true, Bool.or_eq_true,
    List.contains_iff_mem, or_comm (a := c.isLower = true)]

theorem isPlaceholderPart_iff {c : Char} : isPlaceholderPart c = true ↔ PlaceholderChar c := by
  rw [isPlaceholderPart, PlaceholderChar, Bool.and_eq_true, Bool.and_eq_true, Bool.and_eq_true,
    bne_iff_ne, bne_iff_ne, bne_iff_ne, Bool.not_eq_true', List.mem_cons, List.mem_cons,
    List.mem_singleton, not_or, not_or, and_assoc (a := c ≠ '{')]

theorem isHexDigit_eq (c : Char) : Text.isHexDigit c = c.isHexDigit := rfl

/-- Braces and the percent sign do not stand for themselves. -/
theorem LiteralChar.ne {c : Char} (h : LiteralChar c) : c ≠ '{' ∧ c ≠ '%' := by
  constructor
  · rintro rfl
    revert h
    unfold LiteralChar
    decide
  · rintro rfl
    revert h
    unfold LiteralChar
    decide

/-- A hexadecimal digit is a letter or a digit. -/
theorem isNamePart_of_isHexDigit {c : Char} (h : c.isHexDigit = true) : isNamePart c = true := by
  rw [Char.isHexDigit, Bool.or_eq_true, Bool.or_eq_true, Bool.and_eq_true, Bool.and_eq_true,
    decide_eq_true_eq, decide_eq_true_eq, decide_eq_true_eq, decide_eq_true_eq] at h
  rw [isNamePart_iff, Char.isAlphanum, isAlpha_eq, Bool.or_eq_true, Bool.or_eq_true]
  left
  rcases h with (hdigit | ⟨hlow, hhigh⟩) | ⟨hlow, hhigh⟩
  · exact Or.inr hdigit
  · left
    right
    rw [← isLower_eq, isLower, Bool.and_eq_true, decide_eq_true_eq, decide_eq_true_eq]
    exact ⟨hlow, UInt32.le_trans hhigh (show 'f'.val ≤ 'z'.val by decide)⟩
  · left
    left
    rw [← isUpper_eq, isUpper, Bool.and_eq_true, decide_eq_true_eq, decide_eq_true_eq]
    exact ⟨hlow, UInt32.le_trans hhigh (show 'F'.val ≤ 'Z'.val by decide)⟩

theorem LiteralChar.visible {c : Char} (h : LiteralChar c) : isBlank c = false := by
  rcases h with halnum | hmark
  · exact isBlank_of_isNamePart (isNamePart_iff.2 (Or.inl halnum))
  · have hmarks : "._~!$&'()*+,;=:@-".toList.all (!isBlank ·) = true := by decide
    have hvisible := List.all_eq_true.1 hmarks c hmark
    rwa [Bool.not_eq_true'] at hvisible

theorem Piece.visible (piece : Piece) : ∀ c ∈ piece.text, isBlank c = false := by
  cases piece with
  | slash => exact List.forall_mem_singleton.2 (by decide)
  | literal c h => exact List.forall_mem_singleton.2 h.visible
  | escape high low hhigh hlow =>
    rw [Piece.text, List.forall_mem_cons, List.forall_mem_cons, List.forall_mem_singleton]
    exact ⟨by decide, isBlank_of_isNamePart (isNamePart_of_isHexDigit hhigh),
      isBlank_of_isNamePart (isNamePart_of_isHexDigit hlow)⟩
  | placeholder name hne h =>
    rw [Piece.text, List.forall_mem_cons, List.forall_mem_append, List.forall_mem_singleton]
    exact ⟨by decide, fun c hc => (h c hc).2, by decide⟩

/-- A path is a word. -/
theorem IsPathText.isWord {path : List Char} (h : IsPathText path) : IsWord path where
  ne_nil := by
    obtain ⟨pieces, rfl⟩ := h
    exact List.cons_ne_nil _ _
  visible := by
    obtain ⟨pieces, rfl⟩ := h
    rw [List.forall_mem_cons]
    refine ⟨by decide, fun c hc => ?_⟩
    obtain ⟨piece, -, hpiece⟩ := List.mem_flatMap.1 hc
    exact piece.visible c hpiece

/-! ### Completeness -/

/-- A character behind which nothing special stands. -/
theorem isTail_cons {c : Char} (hbrace : c ≠ '{') (hpercent : c ≠ '%') (rest : List Char) :
    isTail (c :: rest) = ((c == '/' || isLiteral c) && isTail rest) :=
  isTail.eq_4 c rest (fun _ _ h _ => hbrace h) (fun _ _ _ h _ => hpercent h)

/-- The rest of a placeholder, its closing brace, and a tail. -/
theorem isPlaceholderTail_append {name rest : List Char} (h : ∀ c ∈ name, PlaceholderChar c) :
    isPlaceholderTail (name ++ '}' :: rest) = isTail rest := by
  induction name with
  | nil => rfl
  | cons c name ih =>
    rw [List.forall_mem_cons] at h
    have hbrace : c ≠ '}' := by
      rintro rfl
      exact h.1.1 (by decide)
    rw [List.cons_append, isPlaceholderTail.eq_3 c _ hbrace, isPlaceholderPart_iff.2 h.1,
      Bool.true_and, ih h.2]

theorem isTail_text_append (piece : Piece) (rest : List Char) :
    isTail (piece.text ++ rest) = isTail rest := by
  cases piece with
  | slash => rfl
  | literal c h =>
    rw [Piece.text, List.singleton_append, isTail_cons h.ne.1 h.ne.2, isLiteral_iff.2 h,
      Bool.or_true, Bool.true_and]
  | escape high low hhigh hlow =>
    show (Text.isHexDigit high && Text.isHexDigit low && isTail rest) = isTail rest
    rw [isHexDigit_eq, isHexDigit_eq, hhigh, hlow, Bool.true_and, Bool.true_and]
  | placeholder name hne h =>
    cases name with
    | nil => exact absurd rfl hne
    | cons c name =>
      rw [List.forall_mem_cons] at h
      show (isPlaceholderPart c && isPlaceholderTail (name ++ ['}'] ++ rest)) = isTail rest
      rw [List.append_assoc, List.singleton_append, isPlaceholderTail_append h.2,
        isPlaceholderPart_iff.2 h.1, Bool.true_and]

theorem isTail_flatMap (pieces : List Piece) : isTail (pieces.flatMap Piece.text) = true := by
  induction pieces with
  | nil => rfl
  | cons piece pieces ih => rw [List.flatMap_cons, isTail_text_append, ih]

/-! ### Soundness -/

/-- A tail is made of pieces, and what may follow an open brace is the rest of a placeholder with
its closing brace and then pieces. -/
theorem exists_pieces :
    (∀ text, isTail text = true → ∃ pieces : List Piece, text = pieces.flatMap Piece.text) ∧
    (∀ text, isPlaceholderTail text = true → ∃ (name : List Char) (pieces : List Piece),
      (∀ c ∈ name, PlaceholderChar c) ∧ text = name ++ '}' :: pieces.flatMap Piece.text) := by
  refine isTail.mutual_induct
    (fun text => isTail text = true → ∃ pieces : List Piece, text = pieces.flatMap Piece.text)
    (fun text => isPlaceholderTail text = true → ∃ (name : List Char) (pieces : List Piece),
      (∀ c ∈ name, PlaceholderChar c) ∧ text = name ++ '}' :: pieces.flatMap Piece.text)
    ?_ ?_ ?_ ?_ ?_ ?_ ?_
  · intro _
    exact ⟨[], rfl⟩
  -- an open brace and the first character of a name
  · intro c rest ih h
    rw [isTail, Bool.and_eq_true, isPlaceholderPart_iff] at h
    obtain ⟨name, pieces, hname, rfl⟩ := ih h.2
    refine ⟨.placeholder (c :: name) (List.cons_ne_nil c name)
      (List.forall_mem_cons.2 ⟨h.1, hname⟩) :: pieces, ?_⟩
    rw [List.flatMap_cons, Piece.text, List.cons_append, List.cons_append, List.cons_append,
      List.append_assoc, List.singleton_append]
  -- a percent sign
  · intro high low rest ih h
    rw [isTail, Bool.and_eq_true, Bool.and_eq_true, isHexDigit_eq, isHexDigit_eq] at h
    obtain ⟨pieces, rfl⟩ := ih h.2
    exact ⟨.escape high low h.1.1 h.1.2 :: pieces, rfl⟩
  -- any other character
  · intro c rest hbrace hpercent ih h
    rw [isTail.eq_4 c rest hbrace hpercent, Bool.and_eq_true, Bool.or_eq_true, beq_iff_eq,
      isLiteral_iff] at h
    obtain ⟨pieces, rfl⟩ := ih h.2
    rcases h.1 with rfl | hliteral
    · exact ⟨.slash :: pieces, rfl⟩
    · exact ⟨.literal c hliteral :: pieces, rfl⟩
  -- an open brace that is never closed
  · intro h
    cases h
  · intro rest ih h
    obtain ⟨pieces, rfl⟩ := ih h
    exact ⟨[], pieces, nofun, rfl⟩
  · intro c rest hbrace ih h
    rw [isPlaceholderTail.eq_3 c rest hbrace, Bool.and_eq_true, isPlaceholderPart_iff] at h
    obtain ⟨name, pieces, hname, rfl⟩ := ih h.2
    exact ⟨c :: name, pieces, List.forall_mem_cons.2 ⟨h.1, hname⟩, rfl⟩

/-- **The texts that are paths** are those of the grammar. -/
theorem isPath_iff {text : List Char} : isPath text = true ↔ IsPathText text := by
  constructor
  · intro h
    unfold isPath at h
    split at h
    · rename_i rest
      obtain ⟨pieces, rfl⟩ := exists_pieces.1 rest h
      exact ⟨pieces, rfl⟩
    · cases h
  · rintro ⟨pieces, rfl⟩
    exact isTail_flatMap pieces

end ApiShorthand.Path
