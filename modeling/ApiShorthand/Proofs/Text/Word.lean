import ApiShorthand.Proofs.Text.Blank
import ApiShorthand.Text.Identifier

/-!
# Correctness of words and identifiers

`words` splits a text at its white space: it is `[]` exactly on white space
(`words_eq_nil_iff`), and its first word is the first run of visible characters, ended by white
space or by the end of the text (`words_eq_cons_iff`). `takeName?` takes the identifier off the
front of a text (`takeName?_eq_some_iff`).
-/

namespace ApiShorthand.Text

/-! ### Runs of a class of characters -/

section Runs

variable {p : Char → Bool} {run rest : List Char}

/-- A run ends at the first character that is not of its class. -/
theorem takeWhile_append_eq (hrun : ∀ c ∈ run, p c = true) (hrest : ∀ c ∈ rest.head?, p c = false) :
    (run ++ rest).takeWhile p = run := by
  rw [List.takeWhile_append_of_pos hrun]
  cases rest with
  | nil => exact List.append_nil run
  | cons c rest =>
    rw [List.takeWhile_cons_of_neg (by rw [hrest c rfl]; decide), List.append_nil]

theorem dropWhile_append_eq (hrun : ∀ c ∈ run, p c = true) (hrest : ∀ c ∈ rest.head?, p c = false) :
    (run ++ rest).dropWhile p = rest := by
  rw [List.dropWhile_append_of_pos hrun]
  cases rest with
  | nil => rfl
  | cons c rest => exact List.dropWhile_cons_of_neg (by rw [hrest c rfl]; decide)

end Runs

/-! ### Words -/

/-- A nonempty text without white space. -/
structure IsWord (text : List Char) : Prop where
  /-- A word has a character. -/
  ne_nil : text ≠ []
  /-- Every character is visible. -/
  visible : ∀ c ∈ text, isBlank c = false

/-- A text that is empty or starts with white space, so that no word goes on into it. -/
def EndsWord (text : List Char) : Prop :=
  ∀ c ∈ text.head?, isBlank c = true

theorem IsWord.isTrimmed {text : List Char} (h : IsWord text) : IsTrimmed text where
  head c hc := h.visible c (List.mem_of_mem_head? hc)
  last c hc := h.visible c (List.mem_of_mem_getLast? hc)

/-- With an open word, reading on up to white space closes that word behind the letters read. -/
theorem words_go_append (letters word rest : List Char) (hword : ∀ c ∈ word, isBlank c = false)
    (hrest : EndsWord rest) :
    words.go letters (word ++ rest) = words.close (word.reverse ++ letters) (words rest) := by
  induction word generalizing letters with
  | nil =>
    cases rest with
    | nil => rfl
    | cons c rest =>
      have hc : isBlank c = true := hrest c rfl
      rw [List.nil_append, words.go, if_pos hc, List.reverse_nil, List.nil_append, words, words.go,
        if_pos hc]
      rfl
  | cons c word ih =>
    have hc : isBlank c = false := hword c List.mem_cons_self
    have hword' : ∀ d ∈ word, isBlank d = false := fun d hd => hword d (List.mem_cons_of_mem c hd)
    rw [List.cons_append, words.go, if_neg (by rw [hc]; decide), ih (c :: letters) hword',
      List.reverse_cons, List.append_assoc, List.singleton_append]

/-- White space in front changes no word. -/
theorem words_append_of_isBlankText {gap : List Char} (hgap : IsBlankText gap) (text : List Char) :
    words (gap ++ text) = words text := by
  induction gap with
  | nil => rfl
  | cons c gap ih =>
    rw [isBlankText_cons] at hgap
    rw [List.cons_append, words, words.go, if_pos hgap.1, words.close]
    exact ih hgap.2

/-- The first word of a text, and the words behind it. -/
theorem words_append {gap word rest : List Char} (hgap : IsBlankText gap) (hword : IsWord word)
    (hrest : EndsWord rest) : words (gap ++ (word ++ rest)) = word :: words rest := by
  have hne : word.reverse.isEmpty = false := by
    rw [List.isEmpty_reverse, List.isEmpty_eq_false_iff]
    exact hword.ne_nil
  rw [words_append_of_isBlankText hgap, words, words_go_append [] word rest hword.visible hrest,
    List.append_nil, words.close, hne, List.reverse_reverse]
  rfl

theorem words_of_isBlankText {text : List Char} (h : IsBlankText text) : words text = [] := by
  have hwords := words_append_of_isBlankText h []
  rwa [List.append_nil] at hwords

/-- A text is white space, or it has a first word. -/
theorem isBlankText_or_exists_word (text : List Char) :
    IsBlankText text ∨ ∃ gap word rest, IsBlankText gap ∧ IsWord word ∧ EndsWord rest ∧
      text = gap ++ (word ++ rest) := by
  cases hvisible : trimStart text with
  | nil =>
    left
    rw [← indentation_append_trimStart text, hvisible, List.append_nil]
    exact isBlankText_indentation text
  | cons c tail =>
    right
    refine ⟨indentation text, (c :: tail).takeWhile (!isBlank ·),
      (c :: tail).dropWhile (!isBlank ·), isBlankText_indentation text, ⟨?_, ?_⟩, ?_, ?_⟩
    · have hc := head_trimStart text c (by rw [hvisible]; rfl)
      rw [List.takeWhile_cons_of_pos (by rw [hc]; rfl)]
      exact List.cons_ne_nil _ _
    · intro d hd
      have hd' := List.mem_takeWhile_imp hd
      rwa [Bool.not_eq_true'] at hd'
    · intro d hd
      have hd' := List.head?_dropWhile_not (!isBlank ·) (c :: tail)
      rw [Option.mem_def.1 hd] at hd'
      simpa using hd'
    · rw [List.takeWhile_append_dropWhile, ← hvisible, indentation_append_trimStart]

theorem words_eq_nil_iff {text : List Char} : words text = [] ↔ IsBlankText text := by
  constructor
  · intro h
    rcases isBlankText_or_exists_word text with hblank | ⟨gap, word, rest, hgap, hword, hrest, rfl⟩
    · exact hblank
    · rw [words_append hgap hword hrest] at h
      cases h
  · exact words_of_isBlankText

theorem words_eq_cons_iff {text word : List Char} {others : List (List Char)} :
    words text = word :: others ↔ ∃ gap rest, IsBlankText gap ∧ IsWord word ∧ EndsWord rest ∧
      text = gap ++ (word ++ rest) ∧ words rest = others := by
  constructor
  · intro h
    rcases isBlankText_or_exists_word text with
      hblank | ⟨gap, first, rest, hgap, hfirst, hrest, rfl⟩
    · rw [words_of_isBlankText hblank] at h
      cases h
    · rw [words_append hgap hfirst hrest] at h
      cases h
      exact ⟨gap, rest, hgap, hfirst, hrest, rfl, rfl⟩
  · rintro ⟨gap, rest, hgap, hword, hrest, rfl, rfl⟩
    exact words_append hgap hword hrest

/-! ### Identifiers -/

/-- An ASCII letter or underscore, and then ASCII letters, digits and underscores. -/
def IsIdentifier (text : List Char) : Prop :=
  ∃ c rest, text = c :: rest ∧ (c.isAlpha = true ∨ c = '_') ∧
    ∀ d ∈ rest, d.isAlphanum = true ∨ d = '_'

theorem isUpper_eq (c : Char) : isUpper c = c.isUpper :=
  (Bool.decide_and _ _).symm

theorem isLower_eq (c : Char) : isLower c = c.isLower := rfl

theorem isDigit_eq (c : Char) : isDigit c = c.isDigit := rfl

theorem isAlpha_eq (c : Char) : c.isAlpha = (c.isUpper || c.isLower) := rfl

theorem isNameStart_iff {c : Char} : isNameStart c = true ↔ c.isAlpha = true ∨ c = '_' := by
  rw [isNameStart, isLower_eq, isUpper_eq, isAlpha_eq, Bool.or_eq_true, Bool.or_comm c.isLower,
    beq_iff_eq]

theorem isNamePart_iff {c : Char} : isNamePart c = true ↔ c.isAlphanum = true ∨ c = '_' := by
  rw [isNamePart, Bool.or_eq_true, isNameStart_iff, isDigit_eq, Char.isAlphanum, Bool.or_eq_true]
  exact or_right_comm

/-- No name goes on with white space. -/
theorem isNamePart_of_isBlank {c : Char} (h : isBlank c = true) : isNamePart c = false := by
  -- name characters have codes from 48 to 122, and no white space lies between 33 and 132
  have hblank : (c.toNat ≤ 32 ∨ 133 ≤ c.toNat) := by
    simp only [isBlank, inRanges, blankRanges, List.any_cons, List.any_nil, Bool.or_false,
      Bool.or_eq_true, Bool.and_eq_true, decide_eq_true_eq] at h
    omega
  have hpart : isNamePart c = true → 48 ≤ c.toNat ∧ c.toNat ≤ 122 := by
    intro hc
    simp only [isNamePart, isNameStart, isLower, isUpper, isDigit, Bool.or_eq_true,
      Bool.and_eq_true, decide_eq_true_eq, beq_iff_eq, Char.le_def, UInt32.le_iff_toNat_le] at hc
    rcases hc with ((⟨hlow, hhigh⟩ | ⟨hlow, hhigh⟩) | rfl) | ⟨hlow, hhigh⟩
    · exact ⟨le_trans (by decide) hlow, le_trans hhigh (by decide)⟩
    · exact ⟨le_trans (by decide) hlow, le_trans hhigh (by decide)⟩
    · exact ⟨by decide, by decide⟩
    · exact ⟨le_trans (by decide) hlow, le_trans hhigh (by decide)⟩
  by_contra hne
  rw [Bool.not_eq_false] at hne
  have hrange := hpart hne
  omega

theorem isBlank_of_isNamePart {c : Char} (h : isNamePart c = true) : isBlank c = false := by
  by_contra hblank
  rw [Bool.not_eq_false] at hblank
  rw [isNamePart_of_isBlank hblank] at h
  cases h

theorem isIdentifier_cons_iff {c : Char} {rest : List Char} :
    IsIdentifier (c :: rest) ↔ isNameStart c = true ∧ ∀ d ∈ rest, isNamePart d = true := by
  constructor
  · rintro ⟨c', rest', heq, hc, hrest⟩
    cases heq
    exact ⟨isNameStart_iff.2 hc, fun d hd => isNamePart_iff.2 (hrest d hd)⟩
  · rintro ⟨hc, hrest⟩
    exact ⟨c, rest, rfl, isNameStart_iff.1 hc, fun d hd => isNamePart_iff.1 (hrest d hd)⟩

theorem isIdentifier_of_all_isAlpha {text : List Char} (hne : text ≠ [])
    (h : text.all Char.isAlpha = true) : IsIdentifier text := by
  obtain ⟨c, rest, rfl⟩ := List.exists_cons_of_ne_nil hne
  rw [List.all_cons, Bool.and_eq_true, List.all_eq_true] at h
  refine ⟨c, rest, rfl, Or.inl h.1, fun d hd => Or.inl ?_⟩
  rw [Char.isAlphanum, h.2 d hd, Bool.true_or]

theorem IsIdentifier.isNamePart {name : List Char} (h : IsIdentifier name) :
    ∀ c ∈ name, isNamePart c = true := by
  obtain ⟨c, rest, rfl, hc, hrest⟩ := h
  intro d hd
  rw [isNamePart_iff]
  rcases List.mem_cons.1 hd with rfl | hd
  · exact hc.imp_left fun halpha => by rw [Char.isAlphanum, halpha, Bool.true_or]
  · exact hrest d hd

theorem IsIdentifier.isWord {name : List Char} (h : IsIdentifier name) : IsWord name where
  ne_nil := by
    obtain ⟨c, rest, rfl, -⟩ := h
    exact List.cons_ne_nil c rest
  visible c hc := isBlank_of_isNamePart (h.isNamePart c hc)

/-- An identifier is taken where no further name character follows. -/
theorem takeName?_eq_some_iff {text name rest : List Char} :
    takeName? text = some (name, rest) ↔
      IsIdentifier name ∧ (∀ c ∈ rest.head?, isNamePart c = false) ∧ text = name ++ rest := by
  constructor
  · intro h
    have htext := append_of_takeName? h
    cases text with
    | nil => cases h
    | cons c tail =>
      rw [takeName?] at h
      split at h
      · rename_i hc
        cases h
        refine ⟨isIdentifier_cons_iff.2 ⟨hc, fun d hd => List.mem_takeWhile_imp hd⟩, ?_, htext.symm⟩
        intro d hd
        have hd' := List.head?_dropWhile_not isNamePart tail
        rwa [Option.mem_def.1 hd] at hd'
      · cases h
  · rintro ⟨⟨c, letters, rfl, hc, hletters⟩, hrest, rfl⟩
    have hall : ∀ d ∈ letters, isNamePart d = true := fun d hd => isNamePart_iff.2 (hletters d hd)
    rw [List.cons_append, takeName?, if_pos (isNameStart_iff.2 hc), takeWhile_append_eq hall hrest,
      dropWhile_append_eq hall hrest]

end ApiShorthand.Text
