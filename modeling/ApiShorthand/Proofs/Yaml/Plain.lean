import ApiShorthand.Proofs.Yaml.Position
import ApiShorthand.Yaml.Printer
import ApiShorthand.Yaml.Token.Flow

/-!
# Texts without quotes

A text without white space that is written without quotes is read as it is written
(`readPlain_append`), whatever follows: it ends in front of a colon (`readPlain_colon`), or with its
line, if the next one is not deeper (`readPlain_feed`).
-/

namespace ApiShorthand.Yaml

open Printer

/-! ### Texts without white space -/

/-- A text without white space. -/
def Unbroken (text : List Char) : Prop :=
  ∀ c ∈ text, Text.isBlank c = false

theorem unbroken_of_all {text : List Char} (h : text.all (fun c => !Text.isBlank c) = true) :
    Unbroken text := by
  intro c hc
  have hchar := List.all_eq_true.1 h c hc
  rwa [Bool.not_eq_true'] at hchar

theorem isBlank_eq_false {c : Char} (h : Text.isBlank c = false) : isBlank c = false := by
  rw [← Bool.not_eq_true, isBlank, Bool.or_eq_true, beq_iff_eq, beq_iff_eq, not_or]
  constructor
  · rintro rfl
    exact absurd h (by decide)
  · rintro rfl
    exact absurd h (by decide)

theorem isBreak_eq_false {c : Char} (h : Text.isBlank c = false) : isBreak c = false := by
  have hblank : ∀ d ∈ ['\n', '\r', '\x85', '\u2028', '\u2029'], c ≠ d := by
    have hall : ['\n', '\r', '\x85', '\u2028', '\u2029'].all Text.isBlank = true := by decide
    rintro d hd rfl
    rw [List.all_eq_true.1 hall _ hd] at h
    cases h
  simp only [List.forall_mem_cons] at hblank
  obtain ⟨hfeed, hreturn, hnext, hline, hparagraph, -⟩ := hblank
  simp [isBreak, hfeed, hreturn, hnext, hline, hparagraph]

theorem ne_feed {c : Char} (h : Text.isBlank c = false) : c ≠ '\n' := by
  rintro rfl
  exact absurd h (by decide)

/-- A character that can stand on a line of a YAML text. -/
def Writable (c : Char) : Prop :=
  isReadable c = true ∧ isBreak c = false

theorem writable_of_isPrintable {c : Char} (h : isPrintable c = true)
    (hc : Text.isBlank c = false) : Writable c := by
  refine ⟨?_, isBreak_eq_false hc⟩
  rw [isPrintable, beq_eq_false_iff_ne.2 (ne_feed hc), Bool.false_or, Text.inRanges] at h
  have hranges : Text.inRanges
      [(0x20, 0x7E), (0xA0, 0xD7FF), (0xE000, 0xFFFD), (0x10000, 0x10FFFF)] c.toNat = true := by
    rw [Text.inRanges]
    simp only [List.any_cons, List.any_nil, Bool.or_eq_true, Bool.and_eq_true,
      decide_eq_true_eq, Bool.or_false] at h ⊢
    omega
  rw [isReadable, hranges, Bool.or_true]

theorem not_mem_feed {text : List Char} (h : ∀ c ∈ text, Writable c) : '\n' ∉ text :=
  fun hmem => absurd (h _ hmem).2 (by decide)

/-- Behind characters of a line, the column is not the first one. -/
theorem column_after {text : List Char} (h : ∀ c ∈ text, Writable c) {p : Position}
    (hcolumn : p.column ≠ 0) : (p.after text).column ≠ 0 := by
  rw [Position.after_of_not_mem (not_mem_feed h)]
  exact Nat.ne_of_gt (Nat.add_pos_left (Nat.pos_of_ne_zero hcolumn) _)

theorem column_next {c : Char} (h : c ≠ '\n') (p : Position) : (p.next c).column ≠ 0 := by
  rw [Position.next_of_ne h]
  exact Nat.succ_ne_zero _

theorem column_after_spaces {p : Position} (h : p.column = 0) (column : Nat) :
    (p.after (spaces column)).column = column := by
  rw [spaces, Position.after_spaces, h]
  exact Nat.zero_add column

theorem atDocumentMark_spotsAt {p : Position} (h : p.column ≠ 0) (text : List Char) :
    Spot.atDocumentMark (spotsAt p text) = false := by
  cases text with
  | nil => rfl
  | cons c text => simp [spotsAt_cons, Position.spot, Spot.atDocumentMark, h]

/-- Where the mark of a document is seen, three equal characters of one stand. -/
theorem startsWithMark_of_atDocumentMark {p : Position} {text : List Char}
    (h : Spot.atDocumentMark (spotsAt p text) = true) : Style.startsWithMark text = true := by
  match text with
  | [] => cases h
  | [a] => simp [spotsAt, Spot.atDocumentMark, Spot.startsTriple] at h
  | [a, b] => simp [spotsAt, Spot.atDocumentMark, Spot.startsTriple] at h
  | a :: b :: d :: text =>
    simp only [spotsAt_cons, Spot.atDocumentMark, Spot.startsTriple, Bool.and_eq_true,
      Bool.or_eq_true, beq_iff_eq, Position.char_spot] at h
    obtain ⟨-, ⟨⟨⟨rfl, rfl⟩, rfl⟩, -⟩ | ⟨⟨⟨rfl, rfl⟩, rfl⟩, -⟩⟩ := h <;> rfl

theorem atDocumentMark_eq_false {p : Position} {text : List Char}
    (h : p.column = 0 → Style.startsWithMark text = false) :
    Spot.atDocumentMark (spotsAt p text) = false := by
  by_cases hcolumn : p.column = 0
  · rw [← Bool.not_eq_true]
    intro hmark
    rw [startsWithMark_of_atDocumentMark hmark] at h
    cases h hcolumn
  · exact atDocumentMark_spotsAt hcolumn text

/-- A text that starts with no mark starts with none in front of a colon or the end of a line. -/
theorem startsWithMark_append {text : List Char} (htext : text ≠ [])
    (h : Style.startsWithMark text = false) {c : Char} (hc : c = ':' ∨ c = '\n')
    (stop : List Char) : Style.startsWithMark (text ++ c :: stop) = false := by
  match text with
  | [] => exact absurd rfl htext
  | [a] =>
    rcases hc with rfl | rfl <;> cases stop <;> simp [Style.startsWithMark]
  | [a, b] => rcases hc with rfl | rfl <;> simp [Style.startsWithMark]
  | a :: b :: d :: text =>
    rw [← Bool.not_eq_true] at h ⊢
    intro hmark
    apply h
    rw [List.cons_append, List.cons_append, List.cons_append] at hmark
    unfold Style.startsWithMark at hmark
    split at hmark
    · rename_i heq
      cases heq
      rfl
    · rename_i heq
      cases heq
      rfl
    · cases hmark

/-! ### What follows a scalar -/

/-- A token can start with a character: it is no white space, starts no comment and marks no byte
order. -/
structure StartsToken (c : Char) : Prop where
  /-- It is no white space. -/
  visible : Text.isBlank c = false
  /-- It starts no comment. -/
  ne_comment : c ≠ '#'
  /-- It marks no byte order. -/
  ne_mark : c ≠ '\uFEFF'

/-- Behind a line, a text goes on with a token at a column up to a bound, or it is at its end. -/
inductive GoesOn (indent : Int) : List Char → Prop
  /-- The text is at its end. -/
  | nil : GoesOn indent []
  /-- A token stands behind some blanks. -/
  | line (column : Nat) {c : Char} {rest : List Char} (hcolumn : (column : Int) ≤ indent)
      (hc : StartsToken c) : GoesOn indent (spaces column ++ c :: rest)

/-- The text behind the blanks at the start of a line. -/
def tokenSpots (p : Position) (text : List Char) : List Spot :=
  (spotsAt p text).dropWhile (·.char == ' ')

theorem spaces_spotsAt (p : Position) (column : Nat) :
    ∀ s ∈ spotsAt p (spaces column), (s.char == ' ') = true := by
  induction column generalizing p with
  | zero => exact nofun
  | succ column ih => exact List.forall_mem_cons.2 ⟨rfl, ih _⟩

theorem tokenSpots_line (p : Position) (column : Nat) {c : Char} (hc : StartsToken c)
    (rest : List Char) :
    tokenSpots p (spaces column ++ c :: rest) =
      spotsAt (p.after (spaces column)) (c :: rest) := by
  have hne : ¬ (((p.after (spaces column)).spot c).char == ' ') = true := by
    rw [beq_iff_eq]
    intro heq
    have hspace : c = ' ' := heq
    subst hspace
    exact absurd hc.visible (by decide)
  rw [tokenSpots, spotsAt_append, List.dropWhile_append_of_pos (spaces_spotsAt p column),
    spotsAt_cons, List.dropWhile_cons, if_neg hne]

/-! ### Without quotes -/

theorem Style.hasValueMark_of_cons {c : Char} {text : List Char}
    (h : Style.hasValueMark (c :: text) = false) :
    Style.hasValueMark text = false ∧ (c = ':' → Style.isFollowedByGap text = false) := by
  rw [Style.hasValueMark, Bool.or_eq_false_iff, Bool.and_eq_false_iff, beq_eq_false_iff_ne] at h
  exact ⟨h.2, fun hc => h.1.resolve_left fun hne => hne hc⟩

/-- What a visible character does, unless the mark of a document starts there. -/
theorem readPlain_visible {c : Char} (hc : Text.isBlank c = false) {p : Position}
    {text : List Char} (hmark : Spot.atDocumentMark (spotsAt p (c :: text)) = false)
    (indent : Int) :
    readPlain false indent Gap.none (spotsAt p (c :: text)) =
      if endsPlain false c (spotsAt (p.next c) text) = true then
        .ok ⟨[], false, spotsAt p (c :: text)⟩
      else (readPlain false indent Gap.none (spotsAt (p.next c) text)).map
        (FlowScalar.prepend Gap.none c) := by
  have hstray : isStrayColon false c (spotsAt (p.next c) text) = false := by
    cases spotsAt (p.next c) text <;> rfl
  have hgap : (Gap.none != Gap.none) = false := rfl
  have hbroken : Gap.none.isBroken = false := rfl
  rw [spotsAt_cons] at hmark ⊢
  rw [readPlain, Position.char_spot, isBlank_eq_false hc, isBreak_eq_false hc, hmark, hstray, hgap,
    hbroken]
  simp

/-- A shallow line ends a text. -/
theorem readPlain_shallow {c : Char} (hc : Text.isBlank c = false) {p : Position} {indent : Int}
    (hcolumn : (p.column : Int) < indent) {gap : Gap} (hgap : gap.isBroken = true)
    (text : List Char) :
    readPlain false indent gap (spotsAt p (c :: text)) =
      .ok ⟨[], true, spotsAt p (c :: text)⟩ := by
  rw [spotsAt_cons, readPlain, Position.char_spot, isBlank_eq_false hc, isBreak_eq_false hc, hgap]
  simp [hcolumn]

/-- A text without quotes is read up to where it ends. -/
theorem readPlain_append {text stop : List Char} {p : Position} {indent : Int} {broken : Bool}
    {rest : List Spot} (htext : Unbroken text) (hmark : Style.hasValueMark text = false)
    (hdocument : p.column = 0 → text ≠ [] → Spot.atDocumentMark (spotsAt p (text ++ stop)) = false)
    (hstop : readPlain false indent Gap.none (spotsAt (p.after text) stop) =
      .ok ⟨[], broken, rest⟩) :
    readPlain false indent Gap.none (spotsAt p (text ++ stop)) = .ok ⟨text, broken, rest⟩ := by
  induction text generalizing p with
  | nil => exact hstop
  | cons c text ih =>
    obtain ⟨hmarkRest, hcolon⟩ := Style.hasValueMark_of_cons hmark
    obtain ⟨hc, hrest⟩ := List.forall_mem_cons.1 htext
    have hread := ih (p := p.next c) hrest hmarkRest
      (fun hcolumn => absurd hcolumn (column_next (ne_feed hc) p)) hstop
    have hnoMark : Spot.atDocumentMark (spotsAt p (c :: (text ++ stop))) = false := by
      by_cases hcolumn : p.column = 0
      · exact hdocument hcolumn (List.cons_ne_nil c text)
      · exact atDocumentMark_spotsAt hcolumn (c :: (text ++ stop))
    -- a colon in the text has a visible character behind it
    have hends : ¬ endsPlain false c (spotsAt (p.next c) (text ++ stop)) = true := by
      rw [endsPlain, Bool.false_and, Bool.or_false, Bool.and_eq_true, beq_iff_eq]
      rintro ⟨hcase, hgap⟩
      have hvisible := hcolon hcase
      cases text with
      | nil => cases hvisible
      | cons d text =>
        have hd := hrest d List.mem_cons_self
        rw [List.cons_append, spotsAt_cons, Spot.atGap] at hgap
        rw [Position.char_spot, isBlank_eq_false hd, isBreak_eq_false hd] at hgap
        cases hgap
    rw [List.cons_append, readPlain_visible hc hnoMark, if_neg hends, hread]
    rfl

/-- The colon of a key ends it. -/
theorem readPlain_colon (p : Position) (indent : Int) {c : Char} (hc : c = ' ' ∨ c = '\n')
    (rest : List Char) :
    readPlain false indent Gap.none (spotsAt p (':' :: c :: rest)) =
      .ok ⟨[], false, spotsAt p (':' :: c :: rest)⟩ := by
  have hmark : Spot.atDocumentMark (spotsAt p (':' :: c :: rest)) = false :=
    atDocumentMark_eq_false fun _ => rfl
  have hends : endsPlain false ':' (spotsAt (p.next ':') (c :: rest)) = true := by
    rcases hc with rfl | rfl <;> rfl
  rw [readPlain_visible (by decide) hmark, if_pos hends]

/-- Blanks behind a line break do not count. -/
theorem readPlain_margin (p : Position) (indent : Int) (column : Nat) (text : List Char) :
    readPlain false indent (.breaks (some '\n') []) (spotsAt p (spaces column ++ text)) =
      readPlain false indent (.breaks (some '\n') [])
        (spotsAt (p.after (spaces column)) text) := by
  induction column generalizing p with
  | zero => rfl
  | succ column ih => exact ih (p.next ' ')

/-- The end of a line ends a text, if the next one is not deeper. -/
theorem readPlain_feed (p : Position) {indent : Int} {rest : List Char} (h : GoesOn indent rest) :
    readPlain false (indent + 1) Gap.none (spotsAt p ('\n' :: rest)) =
      .ok ⟨[], true, tokenSpots (p.next '\n') rest⟩ := by
  rw [spotsAt_cons, readPlain]
  show readPlain false (indent + 1) (.breaks (some '\n') []) (spotsAt (p.next '\n') rest) = _
  cases h with
  | nil => rfl
  | @line column c rest hcolumn hc =>
    have hshallow : (((p.next '\n').after (spaces column)).column : Int) < indent + 1 := by
      have hmargin : (p.next '\n').column = 0 := rfl
      rw [column_after_spaces hmargin]
      exact Int.lt_add_one_iff.2 hcolumn
    rw [readPlain_margin, tokenSpots_line _ _ hc, readPlain_shallow hc.visible hshallow rfl]

end ApiShorthand.Yaml
