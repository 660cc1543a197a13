import ApiShorthand.Line
import Mathlib.Data.List.Basic

/-!
# Correctness of `physicalLines`

`SplitsInto text lines` says without an algorithm what the physical lines of a text are; for each
text there is one such list, and `physicalLines` computes it (`splitsInto_iff`).
-/

namespace ApiShorthand

/-- A text splits into lines: each line holds no line feed and is ended by one, with one carriage
return before it or none; only a last line that is not empty may go without an end. -/
inductive SplitsInto : List Char → List (List Char) → Prop where
  /-- The empty text has no lines. -/
  | nil : SplitsInto [] []
  /-- A last line without an end. -/
  | last {line : List Char} (hne : line ≠ []) (hfeed : '\n' ∉ line) : SplitsInto line [line]
  /-- A line ended by a line feed alone. -/
  | feed {line rest : List Char} {lines : List (List Char)} (hfeed : '\n' ∉ line)
      (hreturn : line.getLast? ≠ some '\r') (hrest : SplitsInto rest lines) :
      SplitsInto (line ++ '\n' :: rest) (line :: lines)
  /-- A line ended by a carriage return and a line feed. -/
  | returnFeed {line rest : List Char} {lines : List (List Char)} (hfeed : '\n' ∉ line)
      (hrest : SplitsInto rest lines) : SplitsInto (line ++ '\r' :: '\n' :: rest) (line :: lines)

/-- A character that ends no line belongs to the first line. -/
theorem physicalLines_cons {c : Char} {rest : List Char} (hc : c ≠ '\n')
    (hreturn : c = '\r' → rest.head? ≠ some '\n') :
    physicalLines (c :: rest) = prependToFirst c (physicalLines rest) := by
  refine physicalLines.eq_4 c rest ?_ ?_
  · exact hc
  · rintro tail rfl rfl
    exact hreturn rfl rfl

theorem physicalLines_of_not_mem {line : List Char} (hne : line ≠ []) (hfeed : '\n' ∉ line) :
    physicalLines line = [line] := by
  induction line with
  | nil => exact absurd rfl hne
  | cons c line ih =>
    rw [List.mem_cons, not_or] at hfeed
    have hhead : line.head? ≠ some '\n' := fun h => hfeed.2 (List.mem_of_mem_head? h)
    rw [physicalLines_cons (Ne.symm hfeed.1) fun _ => hhead]
    cases line with
    | nil => rfl
    | cons d line => rw [ih (List.cons_ne_nil d line) hfeed.2, prependToFirst]

theorem physicalLines_append_feed {line : List Char} (hfeed : '\n' ∉ line)
    (hreturn : line.getLast? ≠ some '\r') (rest : List Char) :
    physicalLines (line ++ '\n' :: rest) = line :: physicalLines rest := by
  induction line with
  | nil => rfl
  | cons c line ih =>
    rw [List.mem_cons, not_or] at hfeed
    have hhead : c = '\r' → (line ++ '\n' :: rest).head? ≠ some '\n' := by
      rintro rfl
      cases line with
      -- the carriage return would be the last character of the line
      | nil => exact absurd rfl hreturn
      | cons d line => exact fun h => hfeed.2 (List.mem_of_mem_head? h)
    have hlast : line.getLast? ≠ some '\r' := by
      intro h
      apply hreturn
      rw [List.getLast?_cons, h]
      rfl
    rw [List.cons_append, physicalLines_cons (Ne.symm hfeed.1) hhead, ih hfeed.2 hlast,
      prependToFirst]

theorem physicalLines_append_returnFeed {line : List Char} (hfeed : '\n' ∉ line)
    (rest : List Char) :
    physicalLines (line ++ '\r' :: '\n' :: rest) = line :: physicalLines rest := by
  induction line with
  | nil => rfl
  | cons c line ih =>
    rw [List.mem_cons, not_or] at hfeed
    have hhead : (line ++ '\r' :: '\n' :: rest).head? ≠ some '\n' := by
      cases line with
      | nil => exact fun h => absurd (Option.some.inj h) (by decide)
      | cons d line => exact fun h => hfeed.2 (List.mem_of_mem_head? h)
    rw [List.cons_append, physicalLines_cons (Ne.symm hfeed.1) fun _ => hhead, ih hfeed.2,
      prependToFirst]

/-- A character in front that ends no line, with what follows, makes the first line longer. -/
theorem SplitsInto.prependToFirst {c : Char} {rest : List Char} {lines : List (List Char)}
    (h : SplitsInto rest lines) (hc : c ≠ '\n') (hreturn : c = '\r' → rest.head? ≠ some '\n') :
    SplitsInto (c :: rest) (prependToFirst c lines) := by
  have hmem : ∀ {line : List Char}, '\n' ∉ line → '\n' ∉ c :: line := by
    intro line hline h
    rcases List.mem_cons.1 h with h | h
    · exact hc h.symm
    · exact hline h
  cases h with
  | nil => exact .last (List.cons_ne_nil c []) (hmem List.not_mem_nil)
  | last hne hfeed => exact .last (List.cons_ne_nil c _) (hmem hfeed)
  | @feed line rest lines hfeed hlast hrest =>
    refine .feed (hmem hfeed) ?_ hrest
    cases line with
    | nil =>
      intro h
      exact hreturn (Option.some.inj h) rfl
    | cons d line => rwa [List.getLast?_cons_cons]
  | returnFeed hfeed hrest => exact .returnFeed (hmem hfeed) hrest

theorem splitsInto_physicalLines (text : List Char) : SplitsInto text (physicalLines text) := by
  fun_induction physicalLines text with
  | case1 => exact .nil
  | case2 rest ih =>
    show SplitsInto ([] ++ '\n' :: rest) _
    exact .feed List.not_mem_nil nofun ih
  | case3 rest ih =>
    show SplitsInto ([] ++ '\r' :: '\n' :: rest) _
    exact .returnFeed List.not_mem_nil ih
  | case4 c rest hc hreturn ih =>
    refine ih.prependToFirst hc ?_
    rintro rfl h
    cases rest with
    | nil => cases h
    | cons d rest =>
      cases Option.some.inj h
      exact hreturn rest rfl rfl

/-- **The physical lines of a text** are the one list of lines that the text splits into. -/
theorem splitsInto_iff {text : List Char} {lines : List (List Char)} :
    SplitsInto text lines ↔ physicalLines text = lines := by
  constructor
  · intro h
    induction h with
    | nil => rfl
    | last hne hfeed => exact physicalLines_of_not_mem hne hfeed
    | feed hfeed hreturn hrest ih => rw [physicalLines_append_feed hfeed hreturn, ih]
    | returnFeed hfeed hrest ih => rw [physicalLines_append_returnFeed hfeed, ih]
  · rintro rfl
    exact splitsInto_physicalLines text

end ApiShorthand
