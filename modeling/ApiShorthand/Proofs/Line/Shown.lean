import ApiShorthand.Proofs.Line.FirstLines

/-!
# The lines that a text shows

All that a reader sees of a text is `shownFrom 1 text`: the lines that are not skipped, with their
numbers and without the white space at their ends (`readWith_eq_shown`). What a text shows is known
line by line (`shownFrom_feed`), and part by part where a part ends with a line
(`shownFrom_append`).
-/

namespace ApiShorthand

open Text

/-! ### Texts that end with a line -/

/-- A text that is empty or ends with a line feed, so that a new line starts behind it. -/
def EndsLine (text : List Char) : Prop :=
  ∀ c ∈ text.getLast?, c = '\n'

theorem endsLine_append_right {a b : List Char} (h : EndsLine (a ++ b)) : EndsLine b := by
  intro c hc
  apply h c
  rw [List.getLast?_append, Option.mem_def.1 hc]
  rfl

/-- A text is whole lines and the beginning of one more line. -/
theorem exists_endsLine_append (text : List Char) :
    ∃ lines line, text = lines ++ line ∧ EndsLine lines ∧ '\n' ∉ line := by
  induction text using List.reverseRecOn with
  | nil => exact ⟨[], [], rfl, nofun, List.not_mem_nil⟩
  | append_singleton text c ih =>
    by_cases hc : c = '\n'
    · refine ⟨text ++ [c], [], by simp, fun d hd => ?_, List.not_mem_nil⟩
      rw [List.getLast?_concat, Option.mem_some] at hd
      rw [← hd, hc]
    · obtain ⟨lines, line, rfl, hlines, hline⟩ := ih
      exact ⟨lines, line ++ [c], by simp, hlines, by simp [hline, Ne.symm hc]⟩

theorem SplitsInto.append {a b : List Char} {lines others : List (List Char)}
    (h : SplitsInto a lines) (ha : EndsLine a) (hb : SplitsInto b others) :
    SplitsInto (a ++ b) (lines ++ others) := by
  induction h with
  | nil => exact hb
  | @last line hne hfeed =>
    -- a last line without an end does not end with a line feed
    obtain ⟨c, hc⟩ := Option.isSome_iff_exists.1 (List.getLast?_isSome.2 hne)
    obtain rfl := ha c hc
    exact absurd (List.mem_of_getLast? hc) hfeed
  | @feed line rest lines hfeed hreturn hrest ih =>
    rw [List.append_assoc]
    rw [← List.singleton_append, ← List.append_assoc] at ha
    exact .feed hfeed hreturn (ih (endsLine_append_right ha))
  | @returnFeed line rest lines hfeed hrest ih =>
    rw [List.append_assoc]
    rw [List.append_cons, List.append_cons] at ha
    exact .returnFeed hfeed (ih (endsLine_append_right ha))

theorem physicalLines_append {a : List Char} (ha : EndsLine a) (b : List Char) :
    physicalLines (a ++ b) = physicalLines a ++ physicalLines b :=
  splitsInto_iff.1 ((splitsInto_physicalLines a).append ha (splitsInto_physicalLines b))

theorem numberFrom_append (number : Nat) (lines others : List (List Char)) :
    numberFrom number (lines ++ others) =
      numberFrom number lines ++ numberFrom (number + lines.length) others := by
  induction lines generalizing number with
  | nil => rfl
  | cons raw lines ih => simp [numberFrom, ih, Nat.add_assoc, Nat.add_comm 1]

/-! ### What is seen of a line -/

theorem isBlankText_carriageReturn : IsBlankText ['\r'] :=
  isBlankText_cons.2 ⟨by decide, isBlankText_nil⟩

theorem isSkipped_trimEnd_iff {raw : List Char} : IsSkipped (trimEnd raw) ↔ IsSkipped raw := by
  rw [LineKind.isSkipped_iff, LineKind.isSkipped_iff, trim_trimEnd]

/-- What a line shows: nothing if it is skipped, else its number and its text without the white
space at the end. -/
def shownLine (line : NumberedLine) : List NumberedLine :=
  if IsSkipped line.2 then [] else [(line.1, trimEnd line.2)]

theorem shownLine_of_isSkipped {number : Nat} {raw : List Char} (h : IsSkipped raw) :
    shownLine (number, raw) = [] :=
  if_pos h

theorem shownLine_congr {raw raw' : List Char} (h : trimEnd raw = trimEnd raw') (number : Nat) :
    shownLine (number, raw) = shownLine (number, raw') := by
  have hskipped : IsSkipped raw ↔ IsSkipped raw' := by
    rw [← isSkipped_trimEnd_iff, h, isSkipped_trimEnd_iff]
  simp only [shownLine, hskipped, h]

/-- What a text shows if its first line has this number. -/
def shownFrom (number : Nat) (text : List Char) : List NumberedLine :=
  (numberFrom number (physicalLines text)).flatMap shownLine

theorem shownFrom_append {a : List Char} (ha : EndsLine a) (number : Nat) (b : List Char) :
    shownFrom number (a ++ b) =
      shownFrom number a ++ shownFrom (number + (physicalLines a).length) b := by
  rw [shownFrom, physicalLines_append ha, numberFrom_append, List.flatMap_append]
  rfl

theorem shownFrom_line {line : List Char} (hfeed : '\n' ∉ line) (number : Nat) :
    shownFrom number line = shownLine (number, line) := by
  by_cases hne : line = []
  · subst hne
    exact (shownLine_of_isSkipped (Or.inl isBlankText_nil)).symm
  · rw [shownFrom, physicalLines_of_not_mem hne hfeed]
    simp [numberFrom]

/-- A carriage return before the line feed is white space at the end of its line. -/
theorem shownFrom_feed {line : List Char} (hfeed : '\n' ∉ line) (number : Nat)
    (rest : List Char) :
    shownFrom number (line ++ '\n' :: rest) =
      shownLine (number, line) ++ shownFrom (number + 1) rest := by
  by_cases hreturn : line.getLast? = some '\r'
  · obtain ⟨front, rfl⟩ := List.getLast?_eq_some_iff.1 hreturn
    have hfront : '\n' ∉ front := fun h => hfeed (List.mem_append_left _ h)
    have htrim := trimEnd_append front isBlankText_carriageReturn
    rw [shownLine_congr htrim, shownFrom, List.append_assoc,
      List.singleton_append, physicalLines_append_returnFeed hfront]
    rfl
  · rw [shownFrom, physicalLines_append_feed hfeed hreturn]
    rfl

/-! ### Reading what is shown -/

theorem Line.read_trimEnd {raw : List Char} (h : ¬ IsSkipped raw) (previous number : Nat) :
    read previous number (trimEnd raw) = read previous number raw := by
  have hblank : ¬ IsBlankText raw := fun hblank => h (Or.inl hblank)
  have hkind : LineKind.ofChars (trimEnd raw) = LineKind.ofChars raw := by
    rw [LineKind.ofChars_of_not_isSkipped h,
      LineKind.ofChars_of_not_isSkipped (isSkipped_trimEnd_iff.not.2 h), indentation_trimEnd hblank]
  rw [read, read, trim_trimEnd, indentation_trimEnd hblank, hkind]

variable {σ ρ : Type} {step : σ → Line → Except Fault σ}

theorem foldlM_shownLine (line : NumberedLine) (state : Nat × σ) :
    (shownLine line).foldlM (advance step) state = advance step state line := by
  by_cases h : IsSkipped line.2
  · rw [shownLine, if_pos h, advance, if_pos h]
    rfl
  · rw [shownLine, if_neg h, List.foldlM_cons, advance, if_neg (isSkipped_trimEnd_iff.not.2 h),
      Line.read_trimEnd h, advance, if_neg h]
    exact bind_pure _

theorem foldlM_flatMap_shownLine (lines : List NumberedLine) (state : Nat × σ) :
    (lines.flatMap shownLine).foldlM (advance step) state =
      lines.foldlM (advance step) state := by
  induction lines generalizing state with
  | nil => rfl
  | cons line lines ih =>
    rw [List.flatMap_cons, List.foldlM_append, foldlM_shownLine, List.foldlM_cons]
    exact bind_congr fun state' => ih state'

/-- **Reading a text** is a fold over what the text shows. -/
theorem readWith_eq_shown (start : σ) (finish : σ → ρ) (text : String) :
    readWith step start finish text =
      ((shownFrom 1 text.toList).foldlM (advance step) (0, start)).map
        fun state => finish state.2 := by
  rw [readWith_eq, shownFrom, foldlM_flatMap_shownLine]

end ApiShorthand
