import ApiShorthand.Proofs.Line.Renumbering
import Mathlib.Logic.Relation

/-!
# The layout of a text

Blank lines, comments, white space at the ends of lines, and the form of line ends are the layout of
a text. `AddsLayout` is one addition to it and `ChangesLayout` any number of additions and removals,
each with the numbers that the lines of the one text have in the other. What a text shows is not
changed by its layout, but for those numbers (`ChangesLayout.forall₂_shownFrom`).
-/

namespace ApiShorthand

open Text

/-- What ends a line: a line feed, alone or behind a carriage return. -/
def IsLineEnd (ending : List Char) : Prop :=
  ending = ['\n'] ∨ ending = ['\r', '\n']

/-- One addition to the layout of a text. The relation tells which line of the text before it is
which line of the text after it. -/
inductive AddsLayout : List Char → List Char → (Nat → Nat → Prop) → Prop where
  /-- A whole line that is blank or a comment: the lines behind it move by one. -/
  | line {lines line ending rest : List Char} (hlines : EndsLine lines) (hfeed : '\n' ∉ line)
      (hskipped : IsSkipped line) (hending : IsLineEnd ending) :
      AddsLayout (lines ++ rest) (lines ++ (line ++ (ending ++ rest))) fun number number' =>
        number' = if number ≤ (physicalLines lines).length then number else number + 1
  /-- White space at the end of a line. -/
  | trailing {before gap after : List Char} (hgap : IsBlankText gap) (hfeed : '\n' ∉ gap)
      (hafter : after = [] ∨ ∃ ending rest, IsLineEnd ending ∧ after = ending ++ rest) :
      AddsLayout (before ++ after) (before ++ (gap ++ after)) Eq
  /-- A carriage return before a line feed. -/
  | carriageReturn {before after : List Char} :
      AddsLayout (before ++ '\n' :: after) (before ++ '\r' :: '\n' :: after) Eq
  /-- An end of the last line. -/
  | lastEnd {text ending : List Char} (hending : IsLineEnd ending) :
      AddsLayout text (text ++ ending) Eq

/-- A change of layout: additions and removals, one after the other. The relation tells which line
of the first text is which line of the last one. -/
inductive ChangesLayout : List Char → List Char → (Nat → Nat → Prop) → Prop where
  | refl (text : List Char) : ChangesLayout text text Eq
  | add {text text' text'' : List Char} {same same' : Nat → Nat → Prop}
      (h : ChangesLayout text text' same) (hadd : AddsLayout text' text'' same') :
      ChangesLayout text text'' (Relation.Comp same same')
  | remove {text text' text'' : List Char} {same same' : Nat → Nat → Prop}
      (h : ChangesLayout text text' same) (hadd : AddsLayout text'' text' same') :
      ChangesLayout text text'' (Relation.Comp same (flip same'))

/-! ### One addition -/

theorem shownFrom_lineEnd {line ending : List Char} (hfeed : '\n' ∉ line)
    (hending : IsLineEnd ending) (number : Nat) (rest : List Char) :
    shownFrom number (line ++ (ending ++ rest)) =
      shownLine (number, line) ++ shownFrom (number + 1) rest := by
  rcases hending with rfl | rfl
  · exact shownFrom_feed hfeed number rest
  · have hfeed' : '\n' ∉ line ++ ['\r'] := by simp [hfeed]
    have hshown := shownFrom_feed hfeed' number rest
    rw [shownLine_congr (trimEnd_append line isBlankText_carriageReturn)] at hshown
    rw [← hshown]
    simp

theorem forall₂_sameShown_of_eq {lines lines' : List NumberedLine} (h : lines = lines') :
    List.Forall₂ (SameShown Eq) lines lines' := by
  rw [h, List.forall₂_same]
  exact fun _ _ => ⟨rfl, rfl⟩

/-- What follows whole lines and the beginning of one is shown behind the whole lines. -/
theorem shownFrom_congr {lines line after after' : List Char} (hlines : EndsLine lines)
    (h : ∀ number, shownFrom number (line ++ after) = shownFrom number (line ++ after')) :
    shownFrom 1 (lines ++ line ++ after) = shownFrom 1 (lines ++ line ++ after') := by
  rw [List.append_assoc, List.append_assoc, shownFrom_append hlines, shownFrom_append hlines, h]

/-- An addition to the layout changes what a text shows by the numbers of its lines only. -/
theorem AddsLayout.forall₂_shownFrom {text text' : List Char} {same : Nat → Nat → Prop}
    (h : AddsLayout text text' same) :
    List.Forall₂ (SameShown same) (shownFrom 1 text) (shownFrom 1 text') := by
  cases h with
  | @line lines line ending rest hlines hfeed hskipped hending =>
    rw [shownFrom_append hlines, shownFrom_append hlines, shownFrom_lineEnd hfeed hending,
      shownLine_of_isSkipped hskipped, List.nil_append]
    refine List.rel_append (shownFrom_renumbered 1 1 lines fun index hindex => ?_)
      (shownFrom_renumbered _ _ rest fun index _ => ?_)
    · rw [if_pos (by omega)]
    · rw [if_neg (by omega)]
      omega
  | @trailing before gap after hgap hfeed hafter =>
    obtain ⟨lines, line, rfl, hlines, hline⟩ := exists_endsLine_append before
    refine forall₂_sameShown_of_eq (shownFrom_congr hlines fun number => ?_)
    have hshown := shownLine_congr (trimEnd_append line hgap) number
    have hfeed' : '\n' ∉ line ++ gap := by simp [hline, hfeed]
    rw [← List.append_assoc]
    rcases hafter with rfl | ⟨ending, rest, hending, rfl⟩
    · rw [List.append_nil, List.append_nil, shownFrom_line hline, shownFrom_line hfeed', hshown]
    · rw [shownFrom_lineEnd hline hending, shownFrom_lineEnd hfeed' hending, hshown]
  | @carriageReturn before after =>
    obtain ⟨lines, line, rfl, hlines, hline⟩ := exists_endsLine_append before
    refine forall₂_sameShown_of_eq (shownFrom_congr hlines fun number => ?_)
    have hfeed := shownFrom_lineEnd hline (Or.inl rfl) number after
    have hreturn := shownFrom_lineEnd hline (Or.inr rfl) number after
    exact hfeed.trans hreturn.symm
  | @lastEnd text ending hending =>
    obtain ⟨lines, line, rfl, hlines, hline⟩ := exists_endsLine_append text
    refine forall₂_sameShown_of_eq ?_
    rw [← List.append_nil (lines ++ line), List.append_assoc _ [] ending]
    refine shownFrom_congr hlines fun number => ?_
    have hshown := shownFrom_lineEnd hline hending number []
    rw [List.append_nil] at hshown
    rw [List.append_nil, List.nil_append, hshown, shownFrom_line hline]
    simp [shownFrom, physicalLines, numberFrom]

/-! ### Numbers of lines -/

theorem biUnique_eq : Relator.BiUnique (@Eq Nat) :=
  ⟨fun _ _ _ ha hb => ha.trans hb.symm, fun _ _ _ hb hc => hb.symm.trans hc⟩

theorem biUnique_flip {same : Nat → Nat → Prop} (h : Relator.BiUnique same) :
    Relator.BiUnique (flip same) :=
  ⟨fun _ _ _ ha hb => h.2 ha hb, fun _ _ _ hb hc => h.1 hb hc⟩

theorem biUnique_comp {same same' : Nat → Nat → Prop} (h : Relator.BiUnique same)
    (h' : Relator.BiUnique same') : Relator.BiUnique (Relation.Comp same same') := by
  constructor
  · rintro a b c ⟨x, ha, hx⟩ ⟨y, hb, hy⟩
    obtain rfl := h'.1 hx hy
    exact h.1 ha hb
  · rintro a b c ⟨x, hx, hb⟩ ⟨y, hy, hc⟩
    obtain rfl := h.2 hx hy
    exact h'.2 hb hc

/-- Different lines stay different lines. -/
theorem AddsLayout.biUnique {text text' : List Char} {same : Nat → Nat → Prop}
    (h : AddsLayout text text' same) : Relator.BiUnique same := by
  cases h with
  | line =>
    constructor
    · intro a b c ha hb
      split_ifs at ha hb <;> omega
    · intro a b c hb hc
      exact hb.trans hc.symm
  | trailing => exact biUnique_eq
  | carriageReturn => exact biUnique_eq
  | lastEnd => exact biUnique_eq

theorem ChangesLayout.biUnique {text text' : List Char} {same : Nat → Nat → Prop}
    (h : ChangesLayout text text' same) : Relator.BiUnique same := by
  induction h with
  | refl => exact biUnique_eq
  | add _ hadd ih => exact biUnique_comp ih hadd.biUnique
  | remove _ hadd ih => exact biUnique_comp ih (biUnique_flip hadd.biUnique)

/-! ### Changes of layout -/

theorem forall₂_sameShown_comp {same same' : Nat → Nat → Prop}
    {lines lines' lines'' : List NumberedLine} (h : List.Forall₂ (SameShown same) lines lines')
    (h' : List.Forall₂ (SameShown same') lines' lines'') :
    List.Forall₂ (SameShown (Relation.Comp same same')) lines lines'' := by
  induction h generalizing lines'' with
  | nil =>
    cases h'
    exact .nil
  | cons hline _ ih =>
    cases h' with
    | cons hline' hrest' =>
      exact .cons ⟨⟨_, hline.1, hline'.1⟩, hline.2.trans hline'.2⟩ (ih hrest')

/-- **What a text shows** is not changed by its layout, but for the numbers of lines. -/
theorem ChangesLayout.forall₂_shownFrom {text text' : List Char} {same : Nat → Nat → Prop}
    (h : ChangesLayout text text' same) :
    List.Forall₂ (SameShown same) (shownFrom 1 text) (shownFrom 1 text') := by
  induction h with
  | refl => exact forall₂_sameShown_of_eq rfl
  | add _ hadd ih => exact forall₂_sameShown_comp ih hadd.forall₂_shownFrom
  | remove _ hadd ih =>
    refine forall₂_sameShown_comp ih ?_
    refine hadd.forall₂_shownFrom.flip.imp fun line line' hline => ⟨hline.1, hline.2.symm⟩

end ApiShorthand
