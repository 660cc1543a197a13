import ApiShorthand.Proofs.Line.Physical
import ApiShorthand.Proofs.Outcome
import ApiShorthand.Proofs.Text.Blank

/-!
# Correctness of reading lines

A physical line is skipped if it is white space or a comment (`IsSkipped`). Every other line either
is `2 * depth` spaces, a visible text and white space (`IsIndented`), and is then read as just that
(`Line.read_eq_ok_iff`), or it has no reading. A reader that goes through the items of a source text
and refuses lines of depth two or more therefore goes through the structural lines one by one
(`Reads`, `foldlM_tokenize_eq_ok_iff`).
-/

namespace ApiShorthand

open Text

/-! ### Skipped lines -/

/-- A line that carries no structure: white space, or a comment with white space before it. -/
def IsSkipped (raw : List Char) : Prop :=
  IsBlankText raw ∨ ∃ gap rest, IsBlankText gap ∧ raw = gap ++ '/' :: '/' :: rest

namespace LineKind

/-- The trimmed text of a comment starts with two slashes. -/
theorem trim_comment {gap : List Char} (hgap : IsBlankText gap) (rest : List Char) :
    trim (gap ++ '/' :: '/' :: rest) = '/' :: '/' :: trimEnd rest := by
  have hslash : isBlank '/' = false := by decide
  rw [trim, trimStart_append hgap, trimStart_cons_of_not_isBlank hslash, trimEnd_cons hslash,
    trimEnd_cons hslash]

theorem isSkipped_iff {raw : List Char} :
    IsSkipped raw ↔ trim raw = [] ∨ ∃ rest, trim raw = '/' :: '/' :: rest := by
  constructor
  · rintro (hblank | ⟨gap, rest, hgap, rfl⟩)
    · exact Or.inl (trim_eq_nil_iff.2 hblank)
    · exact Or.inr ⟨trimEnd rest, trim_comment hgap rest⟩
  · rintro (hnil | ⟨rest, hrest⟩)
    · exact Or.inl (trim_eq_nil_iff.1 hnil)
    · obtain ⟨after, -, hraw⟩ := exists_eq_trim raw
      rw [hrest] at hraw
      exact Or.inr ⟨indentation raw, rest ++ after, isBlankText_indentation raw, hraw⟩

/-- The kind of a line that is not skipped tells whether it starts at the margin. -/
theorem ofChars_of_not_isSkipped {raw : List Char} (h : ¬ IsSkipped raw) :
    ofChars raw = if indentation raw = [] then header else continuation := by
  rw [isSkipped_iff, not_or, not_exists] at h
  unfold ofChars
  split
  · rename_i hnil
    exact absurd hnil h.1
  · rename_i rest hrest
    exact absurd hrest (h.2 rest)
  -- the text is visible, so its first character decides
  · cases raw with
    | nil => exact absurd rfl h.1
    | cons c rest =>
      by_cases hc : isBlank c = true
      · rw [indentation, List.takeWhile_cons_of_pos hc, if_neg (List.cons_ne_nil _ _)]
        exact if_pos hc
      · rw [indentation, List.takeWhile_cons_of_neg hc, if_pos rfl]
        exact if_neg hc

theorem isStructural_ofChars_eq_false_iff {raw : List Char} :
    (ofChars raw).isStructural = false ↔ IsSkipped raw := by
  by_cases h : IsSkipped raw
  · refine iff_of_true ?_ h
    unfold ofChars
    rcases isSkipped_iff.1 h with hnil | ⟨rest, hrest⟩
    · rw [hnil]
      rfl
    · rw [hrest]
      rfl
  · refine iff_of_false ?_ h
    rw [ofChars_of_not_isSkipped h]
    split
    · decide
    · decide

theorem isStructural_ofChars_iff {raw : List Char} :
    (ofChars raw).isStructural = true ↔ ¬ IsSkipped raw := by
  rw [← isStructural_ofChars_eq_false_iff, Bool.not_eq_false]

end LineKind

instance : DecidablePred IsSkipped := fun raw =>
  decidable_of_iff ((LineKind.ofChars raw).isStructural = false)
    LineKind.isStructural_ofChars_eq_false_iff

/-! ### One line -/

/-- A physical line with the number of its place in the text. -/
abbrev NumberedLine := Nat × List Char

/-- A line of depth `depth` that shows `text`: two spaces for each level, the text, white space. -/
structure IsIndented (depth : Nat) (text raw : List Char) : Prop where
  /-- There is no white space around the text. -/
  trimmed : IsTrimmed text
  /-- There is a text. -/
  ne_nil : text ≠ []
  /-- The line is spaces, the text, and white space. -/
  eq_append : ∃ after, IsBlankText after ∧ raw = List.replicate (2 * depth) ' ' ++ (text ++ after)

namespace IsIndented

variable {depth : Nat} {text raw : List Char}

theorem trim_eq (h : IsIndented depth text raw) : trim raw = text := by
  obtain ⟨after, hafter, rfl⟩ := h.eq_append
  exact Text.trim_eq (isBlankText_replicate_space _) h.trimmed hafter

theorem indentation_eq (h : IsIndented depth text raw) :
    indentation raw = List.replicate (2 * depth) ' ' := by
  obtain ⟨after, hafter, rfl⟩ := h.eq_append
  exact Text.indentation_eq (isBlankText_replicate_space _) h.trimmed h.ne_nil

/-- A line that is not skipped shows its trimmed text, if spaces indent it. -/
theorem of_indentation (h : ¬ IsSkipped raw)
    (hspaces : indentation raw = List.replicate (2 * depth) ' ') :
    IsIndented depth (trim raw) raw where
  trimmed := isTrimmed_trim raw
  ne_nil hnil := h (LineKind.isSkipped_iff.2 (Or.inl hnil))
  eq_append := by
    obtain ⟨after, hafter, hraw⟩ := exists_eq_trim raw
    rw [hspaces] at hraw
    exact ⟨after, hafter, hraw⟩

end IsIndented

namespace Line

/-- The structural line of a number, a depth and a text: at the margin it is a header. -/
def structural (number depth : Nat) (text : List Char) : Line where
  number := number
  depth := depth
  kind := if depth = 0 then .header else .continuation
  text := String.ofList text

theorem structural_kind_eq_header_iff {number depth : Nat} {text : List Char} :
    (structural number depth text).kind = .header ↔ depth = 0 := by
  rw [structural]
  split
  · exact iff_of_true rfl ‹_›
  · exact iff_of_false nofun ‹_›

@[simp] theorem toList_structural_text {number depth : Nat} {text : List Char} :
    (structural number depth text).text.toList = text :=
  String.toList_ofList

theorem eq_replicate_of_any {gap : List Char} (h : ¬ gap.any (· != ' ') = true) :
    gap = List.replicate gap.length ' ' := by
  rw [List.eq_replicate_iff]
  refine ⟨rfl, fun c hc => ?_⟩
  by_contra hne
  exact h (List.any_eq_true.2 ⟨c, hc, by rwa [bne_iff_ne]⟩)

theorem not_mem_tab_replicate (width : Nat) : '\t' ∉ List.replicate width ' ' := fun h =>
  absurd (List.eq_of_mem_replicate h) (by decide)

theorem not_any_replicate (width : Nat) :
    ¬ (List.replicate width ' ').any (· != ' ') = true := by
  rw [List.any_eq_true]
  rintro ⟨c, hc, hne⟩
  rw [List.eq_of_mem_replicate hc] at hne
  cases hne

/-- A depth is read off spaces, two a level, at most one level deeper than before. -/
theorem depthOf_eq_ok_iff {previous depth : Nat} {gap : List Char} :
    depthOf previous gap = .ok depth ↔
      gap = List.replicate (2 * depth) ' ' ∧ depth ≤ previous + 1 := by
  constructor
  · intro h
    unfold depthOf at h
    -- only the branch without a fault is left
    split_ifs at h with htab hspaces hodd hjump
    cases h
    have heven : 2 * (gap.length / 2) = gap.length := by omega
    rw [heven]
    exact ⟨eq_replicate_of_any hspaces, by omega⟩
  · rintro ⟨rfl, hdepth⟩
    have hhalf : 2 * depth / 2 = depth := by omega
    unfold depthOf
    rw [if_neg (not_mem_tab_replicate _), if_neg (not_any_replicate _), List.length_replicate,
      if_neg (by omega), hhalf, if_neg (by omega)]

/-- **Reading a line**: a line that is not skipped is read exactly if spaces indent it, two a
level, by at most one level more than the line before. -/
theorem read_eq_ok_iff {previous number : Nat} {raw : List Char} {line : Line}
    (h : ¬ IsSkipped raw) :
    read previous number raw = .ok line ↔ ∃ depth text,
      IsIndented depth text raw ∧ depth ≤ previous + 1 ∧ line = structural number depth text := by
  have hkind : ∀ depth, indentation raw = List.replicate (2 * depth) ' ' →
      LineKind.ofChars raw = if depth = 0 then .header else .continuation := by
    intro depth hspaces
    rw [LineKind.ofChars_of_not_isSkipped h, hspaces]
    refine if_congr ?_ rfl rfl
    rw [List.replicate_eq_nil_iff]
    omega
  unfold read
  constructor
  · intro hread
    split at hread
    · rename_i depth hdepth
      cases hread
      obtain ⟨hspaces, hjump⟩ := depthOf_eq_ok_iff.1 hdepth
      refine ⟨depth, trim raw, IsIndented.of_indentation h hspaces, hjump, ?_⟩
      rw [structural, hkind depth hspaces]
    · cases hread
  · rintro ⟨depth, text, hraw, hjump, rfl⟩
    have hdepth := depthOf_eq_ok_iff.2 ⟨hraw.indentation_eq, hjump⟩
    rw [hdepth, hraw.trim_eq]
    dsimp only
    rw [hkind depth hraw.indentation_eq, structural]

end Line

/-! ### All lines of a text -/

/-- The lines of a text that are not skipped, in order, each with its number. -/
def HasLines (text : String) (lines : List NumberedLine) : Prop :=
  ∃ raws, SplitsInto text.toList raws ∧
    lines = (numberFrom 1 raws).filter fun line => ¬ IsSkipped line.2

theorem hasLines_iff {text : String} {lines : List NumberedLine} :
    HasLines text lines ↔
      lines = (LineStream.ofString text).pending.filter fun line => ¬ IsSkipped line.2 := by
  constructor
  · rintro ⟨raws, hraws, rfl⟩
    rw [LineStream.ofString, splitsInto_iff.1 hraws]
  · rintro rfl
    exact ⟨physicalLines text.toList, splitsInto_physicalLines text.toList, rfl⟩

variable {σ : Type} {step : σ → Line → Except Fault σ}

/-- A reader goes through lines, each indented by whole levels, from one state to another. -/
inductive Reads (step : σ → Line → Except Fault σ) : σ → List NumberedLine → σ → Prop where
  /-- No line is left. -/
  | nil {s : σ} : Reads step s [] s
  /-- The reader takes a line, and goes on. -/
  | cons {s s' s'' : σ} {number depth : Nat} {text raw : List Char} {rest : List NumberedLine}
      (hraw : IsIndented depth text raw)
      (hstep : step s (Line.structural number depth text) = .ok s')
      (hrest : Reads step s' rest s'') : Reads step s ((number, raw) :: rest) s''

namespace Reads

/-- What every line preserves, a run preserves. `Inv` may speak of the lines read so far. -/
theorem preserves {Inv : List NumberedLine → σ → Prop} {s s' : σ} {lines : List NumberedLine}
    (h : Reads step s lines s')
    (hstep : ∀ before s number depth text raw s', Inv before s → IsIndented depth text raw →
      step s (Line.structural number depth text) = .ok s' → Inv (before ++ [(number, raw)]) s')
    (before : List NumberedLine) (hs : Inv before s) : Inv (before ++ lines) s' := by
  induction h generalizing before with
  | nil => rwa [List.append_nil]
  | cons hraw hok hrest ih =>
    rw [List.append_cons]
    exact ih _ (hstep _ _ _ _ _ _ _ hs hraw hok)

theorem append {s s' s'' : σ} {lines others : List NumberedLine} (h : Reads step s lines s')
    (hothers : Reads step s' others s'') : Reads step s (lines ++ others) s'' := by
  induction h with
  | nil => exact hothers
  | cons hraw hok hrest ih => exact .cons hraw hok (ih hothers)

end Reads

/-- A reader that refuses lines of depth two or more never meets a jump of the indentation. -/
theorem foldlM_itemsIn_eq_ok_iff (hstep : ∀ s line s', step s line = .ok s' → line.depth ≤ 1)
    (previous : Nat) (pending : List NumberedLine) (s s' : σ) :
    (LineStream.itemsIn previous pending).foldlM (fun s item => item >>= step s) s = .ok s' ↔
      Reads step s (pending.filter fun line => ¬ IsSkipped line.2) s' := by
  -- `previous` is the depth of the last structural line, which a skipped line leaves as it is
  induction pending generalizing previous s with
  | nil =>
    constructor
    · intro h
      cases h
      exact .nil
    · intro h
      cases h
      rfl
  | cons line pending ih =>
    obtain ⟨number, raw⟩ := line
    by_cases hskipped : IsSkipped raw
    · have hfilter : ((number, raw) :: pending).filter (fun line => ¬ IsSkipped line.2) =
          pending.filter fun line => ¬ IsSkipped line.2 :=
        List.filter_cons_of_neg (by simpa using hskipped)
      rw [LineStream.itemsIn, LineKind.isStructural_ofChars_eq_false_iff.2 hskipped, hfilter]
      exact ih previous s
    · have hkept : (LineKind.ofChars raw).isStructural = true :=
        LineKind.isStructural_ofChars_iff.2 hskipped
      have hfilter : ((number, raw) :: pending).filter (fun line => ¬ IsSkipped line.2) =
          (number, raw) :: pending.filter fun line => ¬ IsSkipped line.2 :=
        List.filter_cons_of_pos (by simpa using hskipped)
      rw [LineStream.itemsIn, if_pos hkept, hfilter]
      constructor
      · intro h
        cases hread : Line.read previous number raw with
        | error fault =>
          rw [hread] at h
          cases h
        | ok line =>
          rw [hread] at h
          obtain ⟨next, hnext, hrest⟩ := Except.bind_eq_ok_iff.1 h
          obtain ⟨depth, text, hraw, -, rfl⟩ := (Line.read_eq_ok_iff hskipped).1 hread
          exact .cons hraw hnext ((ih _ next).1 hrest)
      · intro h
        cases h with
        | @cons _ next _ _ depth text _ _ hraw hok hrest =>
          -- the reader took the line, so it is no jump from any depth before
          have hdepth : depth ≤ 1 := hstep _ _ _ hok
          have hread : Line.read previous number raw = .ok (Line.structural number depth text) :=
            (Line.read_eq_ok_iff hskipped).2 ⟨depth, text, hraw, by omega, rfl⟩
          rw [hread]
          exact Except.bind_eq_ok_iff.2 ⟨next, hok, (ih depth next).2 hrest⟩

/-- **Reading a text** of at most one level goes through its structural lines one by one. -/
theorem foldlM_tokenize_eq_ok_iff (hstep : ∀ s line s', step s line = .ok s' → line.depth ≤ 1)
    (text : String) (s s' : σ) :
    (tokenize text).foldlM (fun s item => item >>= step s) s = .ok s' ↔
      ∃ lines, HasLines text lines ∧ Reads step s lines s' := by
  rw [tokenize, LineStream.toList, foldlM_itemsIn_eq_ok_iff hstep]
  constructor
  · intro h
    exact ⟨_, hasLines_iff.2 rfl, h⟩
  · rintro ⟨lines, hlines, h⟩
    rwa [hasLines_iff.1 hlines] at h

/-- A reader that keeps its items in reverse gives them in order at the end. -/
theorem reverse_foldlM_tokenize_eq_ok_iff {α : Type}
    {step : List α → Line → Except Fault (List α)}
    (hstep : ∀ items line items', step items line = .ok items' → line.depth ≤ 1)
    (text : String) (items : List α) :
    ((tokenize text).foldlM (fun items item => item >>= step items) [] >>=
        fun items => pure items.reverse) = .ok items ↔
      ∃ lines, HasLines text lines ∧ Reads step [] lines items.reverse := by
  rw [← foldlM_tokenize_eq_ok_iff hstep, Except.bind_eq_ok_iff]
  constructor
  · rintro ⟨last, hlast, hok⟩
    cases hok
    rw [List.reverse_reverse]
    exact hlast
  · intro h
    refine ⟨items.reverse, h, ?_⟩
    rw [List.reverse_reverse]
    rfl

end ApiShorthand
