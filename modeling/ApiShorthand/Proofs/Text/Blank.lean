import ApiShorthand.Text.Blank
import Mathlib.Data.List.DropRight
import Mathlib.Data.List.TakeWhile

/-!
# Correctness of trimming

`trim text` is the one trimmed text `t` with `text = before ++ t ++ after` and white space `before`
and `after` (`trim_eq`, `exists_eq_trim`). `indentation` is the white space in front of it
(`indentation_eq`).
-/

namespace ApiShorthand.Text

/-- A text of white space only. -/
def IsBlankText (text : List Char) : Prop :=
  ∀ c ∈ text, isBlank c = true

/-- A text with no white space at its start and none at its end. -/
structure IsTrimmed (text : List Char) : Prop where
  /-- The first character is visible. -/
  head : ∀ c ∈ text.head?, isBlank c = false
  /-- The last character is visible. -/
  last : ∀ c ∈ text.getLast?, isBlank c = false

/-! ### White space -/

theorem isBlankText_nil : IsBlankText [] := by
  intro c hc
  cases hc

theorem isBlankText_cons {c : Char} {text : List Char} :
    IsBlankText (c :: text) ↔ isBlank c = true ∧ IsBlankText text :=
  List.forall_mem_cons

theorem isBlankText_append {a b : List Char} :
    IsBlankText (a ++ b) ↔ IsBlankText a ∧ IsBlankText b :=
  List.forall_mem_append

theorem isBlankText_replicate_space (n : Nat) : IsBlankText (List.replicate n ' ') := by
  intro c hc
  rw [List.eq_of_mem_replicate hc]
  decide

/-- Behind white space, the first character is blank or that of the text itself. -/
theorem IsBlankText.head_append {gap text : List Char} (h : IsBlankText gap) :
    ∀ c ∈ (gap ++ text).head?, isBlank c = true ∨ c ∈ text.head? := by
  intro c hc
  cases gap with
  | nil => exact Or.inr hc
  | cons d gap =>
    left
    rw [← Option.mem_some.1 hc]
    exact h d List.mem_cons_self

/-- No white space stands in front of a trimmed text. -/
theorem IsTrimmed.eq_nil_of_append_left {gap text : List Char} (h : IsTrimmed (gap ++ text))
    (hgap : IsBlankText gap) : gap = [] := by
  cases gap with
  | nil => rfl
  | cons c gap =>
    have hvisible := h.head c rfl
    rw [hgap c List.mem_cons_self] at hvisible
    cases hvisible

/-- No white space stands behind a trimmed text. -/
theorem IsTrimmed.eq_nil_of_append_right {text gap : List Char} (h : IsTrimmed (text ++ gap))
    (hgap : IsBlankText gap) : gap = [] := by
  rcases List.eq_nil_or_concat gap with hnil | ⟨front, c, rfl⟩
  · exact hnil
  · rw [List.concat_eq_append] at h hgap
    have hvisible := h.last c (by rw [← List.append_assoc, List.getLast?_concat]; rfl)
    rw [hgap c (List.mem_append_right front List.mem_cons_self)] at hvisible
    cases hvisible

/-! ### Trimming at one end -/

theorem trimStart_append {gap : List Char} (hgap : IsBlankText gap) (text : List Char) :
    trimStart (gap ++ text) = trimStart text :=
  List.dropWhile_append_of_pos hgap

theorem trimStart_eq_self {text : List Char} (h : ∀ c ∈ text.head?, isBlank c = false) :
    trimStart text = text := by
  cases text with
  | nil => rfl
  | cons c rest => exact trimStart_cons_of_not_isBlank (h c rfl)

/-- What is left after trimming at the start starts visibly. -/
theorem head_trimStart (text : List Char) : ∀ c ∈ (trimStart text).head?, isBlank c = false := by
  intro c hc
  have h := List.head?_dropWhile_not isBlank text
  rw [← trimStart, Option.mem_def.1 hc] at h
  exact h

theorem isBlankText_indentation (text : List Char) : IsBlankText (indentation text) := by
  intro c hc
  exact List.mem_takeWhile_imp hc

theorem trimEnd_append (text : List Char) {gap : List Char} (hgap : IsBlankText gap) :
    trimEnd (text ++ gap) = trimEnd text := by
  have hreverse : IsBlankText gap.reverse := fun c hc => hgap c (List.mem_reverse.1 hc)
  rw [trimEnd, List.reverse_append, List.dropWhile_append_of_pos hreverse, trimEnd]

theorem trimEnd_eq_self {text : List Char} (h : ∀ c ∈ text.getLast?, isBlank c = false) :
    trimEnd text = text := by
  have hreverse : trimStart text.reverse = text.reverse := by
    apply trimStart_eq_self
    intro c hc
    rw [List.head?_reverse] at hc
    exact h c hc
  rw [trimEnd, ← trimStart, hreverse, List.reverse_reverse]

/-- The white space at the end of a text. -/
def trailing (text : List Char) : List Char :=
  List.rtakeWhile isBlank text

theorem trimEnd_append_trailing (text : List Char) : trimEnd text ++ trailing text = text :=
  List.rdropWhile_append_rtakeWhile

theorem isBlankText_trailing (text : List Char) : IsBlankText (trailing text) := by
  intro c hc
  exact List.mem_rtakeWhile_imp hc

theorem last_trimEnd (text : List Char) : ∀ c ∈ (trimEnd text).getLast?, isBlank c = false := by
  intro c hc
  rw [trimEnd, List.getLast?_reverse] at hc
  exact head_trimStart text.reverse c hc

/-- Trimming at the end leaves the start of a text in place, if anything is left of it. -/
theorem head_trimEnd {text : List Char} (h : ∀ c ∈ text.head?, isBlank c = false) :
    ∀ c ∈ (trimEnd text).head?, isBlank c = false := by
  intro c hc
  apply h c
  rw [← trimEnd_append_trailing text, List.head?_append, Option.mem_def.1 hc]
  rfl

/-- A visible character stays in front of what trimming at the end leaves behind it. -/
theorem trimEnd_cons {c : Char} (hc : isBlank c = false) (text : List Char) :
    trimEnd (c :: text) = c :: trimEnd text := by
  have hself : [c].dropWhile isBlank = [c] := List.dropWhile_cons_of_neg (by rw [hc]; decide)
  rw [trimEnd, trimEnd, List.reverse_cons, List.dropWhile_append, hself]
  split
  · rename_i hempty
    rw [List.isEmpty_iff] at hempty
    rw [hempty]
    rfl
  · rw [List.reverse_append]
    rfl

/-! ### Trimming at both ends -/

theorem isTrimmed_trim (text : List Char) : IsTrimmed (trim text) where
  head := head_trimEnd (head_trimStart text)
  last := last_trimEnd (trimStart text)

/-- A trimmed text is what trimming leaves of it between white space. -/
theorem trim_eq {before text after : List Char} (hbefore : IsBlankText before)
    (htext : IsTrimmed text) (hafter : IsBlankText after) :
    trim (before ++ (text ++ after)) = text := by
  rw [trim, trimStart_append hbefore]
  cases text with
  | nil =>
    have hall : trimStart ([] ++ after) = [] := by
      rw [List.nil_append, ← List.append_nil after, trimStart_append hafter, trimStart_nil]
    rw [hall, trimEnd_nil]
  | cons c rest =>
    have hstart : trimStart (c :: rest ++ after) = c :: rest ++ after :=
      trimStart_eq_self htext.head
    rw [hstart, trimEnd_append _ hafter, trimEnd_eq_self htext.last]

/-- A text is its indentation, what trimming leaves of it, and white space. -/
theorem exists_eq_trim (text : List Char) :
    ∃ after, IsBlankText after ∧ text = indentation text ++ (trim text ++ after) := by
  refine ⟨trailing (trimStart text), isBlankText_trailing _, ?_⟩
  rw [trim, trimEnd_append_trailing, indentation_append_trimStart]

/-- With its end trimmed, a text still shows what stands between the white space around it. -/
theorem exists_eq_trim_trimEnd (text : List Char) : ∃ after, IsBlankText after ∧
    text = indentation (trimEnd text) ++ (trim (trimEnd text) ++ after) := by
  obtain ⟨after, hafter, htext⟩ := exists_eq_trim (trimEnd text)
  refine ⟨after ++ trailing text, isBlankText_append.2 ⟨hafter, isBlankText_trailing text⟩, ?_⟩
  calc text = trimEnd text ++ trailing text := (trimEnd_append_trailing text).symm
    _ = indentation (trimEnd text) ++ (trim (trimEnd text) ++ after) ++ trailing text := by
      rw [← htext]
    _ = _ := by rw [List.append_assoc, List.append_assoc]

theorem trim_trimEnd (text : List Char) : trim (trimEnd text) = trim text := by
  obtain ⟨after, hafter, htext⟩ := exists_eq_trim_trimEnd text
  conv_rhs => rw [htext]
  rw [trim_eq (isBlankText_indentation _) (isTrimmed_trim _) hafter]

theorem trim_eq_nil_iff {text : List Char} : trim text = [] ↔ IsBlankText text := by
  constructor
  · intro h
    obtain ⟨after, hafter, htext⟩ := exists_eq_trim text
    rw [h, List.nil_append] at htext
    rw [htext, isBlankText_append]
    exact ⟨isBlankText_indentation text, hafter⟩
  · intro h
    rw [← List.append_nil text, trim, trimStart_append h, trimStart_nil, trimEnd_nil]

/-- The white space in front of a visible character is the indentation. -/
theorem indentation_eq {before text after : List Char} (hbefore : IsBlankText before)
    (htext : IsTrimmed text) (hne : text ≠ []) :
    indentation (before ++ (text ++ after)) = before := by
  rw [indentation, List.takeWhile_append_of_pos hbefore]
  cases text with
  | nil => exact absurd rfl hne
  | cons c rest =>
    rw [List.cons_append, List.takeWhile_cons_of_neg, List.append_nil]
    rw [htext.head c rfl]
    decide

/-- The white space at the end of a text is no indentation, if something stands before it. -/
theorem indentation_trimEnd {text : List Char} (h : ¬ IsBlankText text) :
    indentation (trimEnd text) = indentation text := by
  obtain ⟨after, -, htext⟩ := exists_eq_trim_trimEnd text
  have hne : trim (trimEnd text) ≠ [] := by
    rwa [trim_trimEnd, Ne, trim_eq_nil_iff]
  conv_rhs => rw [htext]
  rw [indentation_eq (isBlankText_indentation _) (isTrimmed_trim _) hne]

end ApiShorthand.Text
