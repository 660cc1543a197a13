import ApiShorthand.Proofs.Line.Structural

/-!
# Correctness of the items of a text

The items of a text are those of its lines that are not skipped, up to and with the first bad one
(`HasItems`). The item of a line is the line itself if its indentation is spaces, two a level and at
most one level more than before; else it is the first of four problems (`IsItem`). A stream yields
these items one after the other, and nothing behind a bad one (`tokenize_hasItems`).
-/

namespace ApiShorthand

open Text

/-! ### One item -/

/-- What is wrong with the indentation of a line behind one of depth `previous`. Of several problems
it is the first of these four. -/
inductive HasProblem (previous : Nat) (gap : List Char) : LineProblem → Prop where
  /-- There is a tab. -/
  | tab (h : '\t' ∈ gap) : HasProblem previous gap .tabIndentation
  /-- There is another character than a space. -/
  | blank {c : Char} (htab : '\t' ∉ gap) (hc : c ∈ gap) (hspace : c ≠ ' ') :
      HasProblem previous gap .blankIndentation
  /-- The number of spaces is odd. -/
  | odd (half : Nat) (h : gap = List.replicate (2 * half + 1) ' ') :
      HasProblem previous gap .oddIndentation
  /-- The line is more than one level deeper. -/
  | jump (depth : Nat) (h : gap = List.replicate (2 * depth) ' ') (hdepth : previous + 1 < depth) :
      HasProblem previous gap .indentationJump

/-- The item of a line behind one of depth `previous`. -/
inductive IsItem (previous : Nat) : NumberedLine → Except Fault Line → Prop where
  /-- Spaces, two for each level, indent the line. -/
  | line {number depth : Nat} {text raw : List Char} (hraw : IsIndented depth text raw)
      (hdepth : depth ≤ previous + 1) :
      IsItem previous (number, raw) (.ok (.structural number depth text))
  /-- Something is wrong with the white space in front of the text. -/
  | fault {number : Nat} {gap text after : List Char} {problem : LineProblem}
      (hgap : IsBlankText gap) (htext : IsTrimmed text) (hne : text ≠ []) (hafter : IsBlankText after)
      (hproblem : HasProblem previous gap problem) :
      IsItem previous (number, gap ++ (text ++ after))
        (.error (.line problem number (String.ofList text)))

namespace Line

/-- The problem of an indentation is the first that it has. -/
theorem depthOf_eq_error_iff {previous : Nat} {gap : List Char} {problem : LineProblem} :
    depthOf previous gap = .error problem ↔ HasProblem previous gap problem := by
  constructor
  · intro h
    unfold depthOf at h
    split_ifs at h with htab hspaces hodd hjump
    · cases h
      exact .tab htab
    · cases h
      obtain ⟨c, hc, hne⟩ := List.any_eq_true.1 hspaces
      exact .blank htab hc (by rwa [bne_iff_ne] at hne)
    · cases h
      have hwidth : gap.length = 2 * (gap.length / 2) + 1 := by omega
      refine .odd (gap.length / 2) ?_
      rw [← hwidth]
      exact eq_replicate_of_any hspaces
    · cases h
      have hwidth : gap.length = 2 * (gap.length / 2) := by omega
      refine .jump (gap.length / 2) ?_ hjump
      rw [← hwidth]
      exact eq_replicate_of_any hspaces
  · intro h
    unfold depthOf
    cases h with
    | tab htab => rw [if_pos htab]
    | blank htab hc hspace =>
      rw [if_neg htab, if_pos (List.any_eq_true.2 ⟨_, hc, by rwa [bne_iff_ne]⟩)]
    | odd half h =>
      subst h
      rw [if_neg (not_mem_tab_replicate _), if_neg (not_any_replicate _), List.length_replicate,
        if_pos (by omega)]
    | jump depth h hdepth =>
      subst h
      have hhalf : 2 * depth / 2 = depth := by omega
      rw [if_neg (not_mem_tab_replicate _), if_neg (not_any_replicate _), List.length_replicate,
        if_neg (by omega), hhalf, if_pos hdepth]

theorem read_eq_error_iff {previous number : Nat} {raw : List Char} {fault : Fault} :
    read previous number raw = .error fault ↔ ∃ problem,
      HasProblem previous (indentation raw) problem ∧
        fault = .line problem number (String.ofList (trim raw)) := by
  unfold read
  dsimp only
  cases hdepth : depthOf previous (indentation raw) with
  | ok depth =>
    refine iff_of_false nofun ?_
    rintro ⟨problem, hproblem, -⟩
    rw [depthOf_eq_error_iff.2 hproblem] at hdepth
    cases hdepth
  | error problem =>
    constructor
    · intro h
      cases h
      exact ⟨problem, depthOf_eq_error_iff.1 hdepth, rfl⟩
    · rintro ⟨problem', hproblem, rfl⟩
      rw [depthOf_eq_error_iff.2 hproblem] at hdepth
      cases hdepth
      rfl

/-- **The item of a line** that is not skipped. -/
theorem read_eq_iff {previous number : Nat} {raw : List Char} {item : Except Fault Line}
    (h : ¬ IsSkipped raw) : read previous number raw = item ↔ IsItem previous (number, raw) item := by
  constructor
  · rintro rfl
    cases hread : read previous number raw with
    | ok line =>
      obtain ⟨depth, text, hraw, hdepth, rfl⟩ := (read_eq_ok_iff h).1 hread
      exact .line hraw hdepth
    | error fault =>
      obtain ⟨problem, hproblem, rfl⟩ := read_eq_error_iff.1 hread
      obtain ⟨after, hafter, hraw⟩ := exists_eq_trim raw
      have hne : trim raw ≠ [] := fun hnil => h (LineKind.isSkipped_iff.2 (Or.inl hnil))
      have hitem : IsItem previous (number, indentation raw ++ (trim raw ++ after))
          (.error (.line problem number (String.ofList (trim raw)))) :=
        .fault (isBlankText_indentation raw) (isTrimmed_trim raw) hne hafter hproblem
      rwa [← hraw] at hitem
  · intro hitem
    cases hitem with
    | line hraw hdepth => exact (read_eq_ok_iff h).2 ⟨_, _, hraw, hdepth, rfl⟩
    | fault hgap htext hne hafter hproblem =>
      rw [read_eq_error_iff, indentation_eq hgap htext hne, Text.trim_eq hgap htext hafter]
      exact ⟨_, hproblem, rfl⟩

end Line

/-! ### All items -/

/-- The items of lines behind one of depth `previous`: one for each line, up to and with the first
that is bad. -/
inductive HasItems : (previous : Nat) → List NumberedLine → List (Except Fault Line) → Prop where
  /-- No line is left. -/
  | nil {previous : Nat} : HasItems previous [] []
  /-- A line is yielded, and what follows is measured by it. -/
  | line {previous : Nat} {numbered : NumberedLine} {line : Line} {rest : List NumberedLine}
      {items : List (Except Fault Line)} (h : IsItem previous numbered (.ok line))
      (hrest : HasItems line.depth rest items) :
      HasItems previous (numbered :: rest) (.ok line :: items)
  /-- A bad line is the last one that counts. -/
  | fault {previous : Nat} {numbered : NumberedLine} {fault : Fault} {rest : List NumberedLine}
      (h : IsItem previous numbered (.error fault)) :
      HasItems previous (numbered :: rest) [.error fault]

theorem LineStream.itemsIn_filter (previous : Nat) (pending : List NumberedLine) :
    itemsIn previous (pending.filter fun line => ¬ IsSkipped line.2) =
      itemsIn previous pending := by
  induction pending generalizing previous with
  | nil => rfl
  | cons line pending ih =>
    obtain ⟨number, raw⟩ := line
    by_cases hskipped : IsSkipped raw
    · rw [List.filter_cons_of_neg (by simpa using hskipped), ih, itemsIn,
        LineKind.isStructural_ofChars_eq_false_iff.2 hskipped, if_neg Bool.false_ne_true]
    · rw [List.filter_cons_of_pos (by simpa using hskipped), itemsIn, itemsIn]
      simp only [ih]

/-- Lines that are not skipped have one list of items, which is the one that is yielded. -/
theorem hasItems_iff {previous : Nat} {lines : List NumberedLine} {items : List (Except Fault Line)}
    (h : ∀ line ∈ lines, ¬ IsSkipped line.2) :
    HasItems previous lines items ↔ items = LineStream.itemsIn previous lines := by
  induction lines generalizing previous items with
  | nil =>
    constructor
    · rintro ⟨⟩
      rfl
    · rintro rfl
      exact .nil
  | cons line lines ih =>
    obtain ⟨number, raw⟩ := line
    rw [List.forall_mem_cons] at h
    rw [LineStream.itemsIn, if_pos (LineKind.isStructural_ofChars_iff.2 h.1)]
    cases hread : Line.read previous number raw with
    | ok line =>
      have hitem := (Line.read_eq_iff h.1).1 hread
      constructor
      · intro hitems
        cases hitems with
        | line hline hrest =>
          rw [(Line.read_eq_iff h.1).2 hline] at hread
          cases hread
          rw [(ih h.2).1 hrest]
        | fault hfault =>
          rw [(Line.read_eq_iff h.1).2 hfault] at hread
          cases hread
      · rintro rfl
        exact .line hitem ((ih h.2).2 rfl)
    | error fault =>
      have hitem := (Line.read_eq_iff h.1).1 hread
      constructor
      · intro hitems
        cases hitems with
        | line hline hrest =>
          rw [(Line.read_eq_iff h.1).2 hline] at hread
          cases hread
        | fault hfault =>
          rw [(Line.read_eq_iff h.1).2 hfault] at hread
          cases hread
          rfl
      · rintro rfl
        exact .fault hitem

/-- The items of a text are those of its lines. -/
theorem hasItems_tokenize (text : String) : ∃ lines, HasLines text lines ∧
    ∀ items, HasItems 0 lines items ↔ items = tokenize text := by
  refine ⟨_, hasLines_iff.2 rfl, fun items => ?_⟩
  rw [hasItems_iff, LineStream.itemsIn_filter]
  · rfl
  · intro line hline
    simpa using (List.mem_filter.1 hline).2

/-- No item stands behind a bad one, so a fault is the last of the items. -/
theorem HasItems.getElem?_of_error {previous : Nat} {lines : List NumberedLine}
    {items : List (Except Fault Line)} (h : HasItems previous lines items) {index : Nat}
    {fault : Fault} (hfault : items[index]? = some (.error fault)) : items.length = index + 1 := by
  induction h generalizing index with
  | nil => cases hfault
  | line h hrest ih =>
    cases index with
    | zero => cases hfault
    | succ index => rw [List.length_cons, ih hfault]
  | fault h =>
    cases index with
    | zero => rfl
    | succ index => cases hfault

theorem HasItems.isItem_of_mem {previous : Nat} {lines : List NumberedLine}
    {items : List (Except Fault Line)} (h : HasItems previous lines items)
    {item : Except Fault Line} (hitem : item ∈ items) :
    ∃ depth, ∃ line ∈ lines, IsItem depth line item := by
  induction h with
  | nil => cases hitem
  | line h hrest ih =>
    rcases List.mem_cons.1 hitem with rfl | hmem
    · exact ⟨_, _, List.mem_cons_self, h⟩
    · obtain ⟨depth, line, hline, hitem⟩ := ih hmem
      exact ⟨depth, line, List.mem_cons_of_mem _ hline, hitem⟩
  | fault h =>
    obtain rfl := List.mem_singleton.1 hitem
    exact ⟨_, _, List.mem_cons_self, h⟩

/-! ### Calls for the next item -/

namespace LineStream

/-- The item that a call gives, if one is left. -/
def item? (stream : LineStream) : Option (Except Fault Line) :=
  stream.next?.map Prod.fst

/-- The stream behind a call. At its end a stream stays as it is. -/
def afterCall (stream : LineStream) : LineStream :=
  (stream.next?.map Prod.snd).getD stream

/-- The stream behind a number of calls. -/
def afterCalls : Nat → LineStream → LineStream
  | 0, stream => stream
  | calls + 1, stream => afterCalls calls stream.afterCall

theorem item?_eq (stream : LineStream) : stream.item? = stream.toList.head? := by
  rw [item?, toList_eq]
  cases stream.next? <;> rfl

theorem toList_afterCall (stream : LineStream) : stream.afterCall.toList = stream.toList.tail := by
  have hlist := stream.toList_eq
  rw [afterCall]
  cases hnext : stream.next? with
  | none =>
    rw [hnext] at hlist
    simp [hlist]
  | some next =>
    rw [hnext] at hlist
    simp [hlist]

/-- Each call takes one item off the front. -/
theorem toList_afterCalls (calls : Nat) (stream : LineStream) :
    (stream.afterCalls calls).toList = stream.toList.drop calls := by
  induction calls generalizing stream with
  | zero => rfl
  | succ calls ih => rw [afterCalls, ih, toList_afterCall, List.drop_tail]

theorem item?_afterCalls (calls : Nat) (stream : LineStream) :
    (stream.afterCalls calls).item? = stream.toList[calls]? := by
  rw [item?_eq, toList_afterCalls, List.head?_drop]

end LineStream

/-- **The items of a text.** They are those of the lines that are not skipped, up to and with the
first bad one, and a line that is yielded is a header exactly if its depth is zero. Behind any number
of calls a stream has just the later items left; and behind a fault or the end every call gives
nothing. -/
theorem tokenize_hasItems (text : String) :
    (∃ lines, HasLines text lines ∧ ∀ items, HasItems 0 lines items ↔ items = tokenize text) ∧
    (∀ line, .ok line ∈ tokenize text →
      line.kind = if line.depth = 0 then .header else .continuation) ∧
    (∀ calls,
      ((LineStream.ofString text).afterCalls calls).item? = (tokenize text)[calls]? ∧
      ((LineStream.ofString text).afterCalls calls).toList = (tokenize text).drop calls) ∧
    (∀ calls later, calls < later →
      (∀ line, ((LineStream.ofString text).afterCalls calls).item? ≠ some (.ok line)) →
        ((LineStream.ofString text).afterCalls later).item? = none) ∧
    LineProblem.tabIndentation.message = "Tabs are not allowed in indentation" ∧
    LineProblem.blankIndentation.message = "Only spaces are allowed in indentation" ∧
    LineProblem.oddIndentation.message = "Indentation must be a multiple of 2 spaces" ∧
    LineProblem.indentationJump.message = "Indentation jumps more than one level" := by
  obtain ⟨lines, hlines, hiff⟩ := hasItems_tokenize text
  have hitems := (hiff _).2 rfl
  refine ⟨⟨lines, hlines, hiff⟩, ?_, ?_, ?_, rfl, rfl, rfl, rfl⟩
  · intro line hline
    obtain ⟨depth, numbered, -, hitem⟩ := hitems.isItem_of_mem hline
    cases hitem
    rfl
  · intro calls
    exact ⟨LineStream.item?_afterCalls calls _, LineStream.toList_afterCalls calls _⟩
  · intro calls later hlater hnone
    rw [LineStream.item?_afterCalls] at hnone ⊢
    rw [List.getElem?_eq_none_iff]
    change (tokenize text).length ≤ later
    change ∀ line, (tokenize text)[calls]? ≠ some (.ok line) at hnone
    cases hitem : (tokenize text)[calls]? with
    | none =>
      have hlength := List.getElem?_eq_none_iff.1 hitem
      omega
    | some item =>
      cases item with
      | ok line => exact absurd hitem (hnone line)
      | error fault =>
        have hlength := hitems.getElem?_of_error hitem
        omega

/-- An odd line behind a comment and a blank line ends the items, whatever follows it. -/
theorem tokenize_hasItems_oddLine :
    tokenize "A:\n  // note\n\n   b: string\nC:\n" =
        [.ok ⟨1, 0, .header, "A:"⟩, .error (.line .oddIndentation 4 "b: string")] ∧
      ((LineStream.ofString "A:\n  // note\n\n   b: string\nC:\n").afterCalls 5).item? = none := by
  have hitems : tokenize "A:\n  // note\n\n   b: string\nC:\n" =
      [.ok ⟨1, 0, .header, "A:"⟩, .error (.line .oddIndentation 4 "b: string")] := by
    decide +kernel
  obtain ⟨-, -, hcalls, hend, -⟩ := tokenize_hasItems "A:\n  // note\n\n   b: string\nC:\n"
  refine ⟨hitems, hend 1 5 (by decide) fun line => ?_⟩
  rw [(hcalls 1).1, hitems]
  exact nofun

end ApiShorthand
