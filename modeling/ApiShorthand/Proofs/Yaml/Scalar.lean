import ApiShorthand.Proofs.Yaml.Quoted
import ApiShorthand.Proofs.Yaml.Scanner

/-!
# Scalars are read as they are written

A text without white space is written on one line (`writable_textChars`), with at most four times
its octets and two quotes (`utf8Len_textChars`). The scanner reads it as one scalar, with the text
that was written: as a value, to the end of its line (`leadsTo_scalar`), and as a key, to the colon
behind it (`leadsTo_simpleKey`).
-/

namespace ApiShorthand.Yaml

open Printer

/-! ### Styles -/

namespace Style

theorem all_isPrintable {text : List Char} (h : needsNoEscape text = true) :
    ∀ c ∈ text, isPrintable c = true := by
  rw [needsNoEscape, Bool.and_eq_true] at h
  exact List.all_eq_true.1 h.1

/-- What a text that can be written without quotes does not have. -/
theorem of_allowsPlain {text : List Char} (h : allowsPlain text = true) :
    needsNoEscape text = true ∧ startsWithIndicator text = false ∧ startsWithMark text = false ∧
      hasValueMark text = false := by
  simp only [allowsPlain, Bool.and_eq_true, Bool.not_eq_true'] at h
  obtain ⟨⟨⟨⟨⟨⟨hescape, -⟩, -⟩, hindicator⟩, hmark⟩, hvalue⟩, -⟩ := h
  exact ⟨hescape, hindicator, hmark, hvalue⟩

/-- How a text without white space is written. -/
theorem ofChars_cases {text : List Char} (h : Unbroken text) :
    (ofChars text = .plain ∧ allowsPlain text = true ∧ isAmbiguous text = false) ∨
      (ofChars text = .single ∧ needsNoEscape text = true) ∨ ofChars text = .double := by
  have hfeed : text.contains '\n' = false := by
    rw [← Bool.not_eq_true, List.contains_iff_mem]
    exact fun hmem => ne_feed (h _ hmem) rfl
  rw [ofChars, hfeed, if_neg Bool.false_ne_true]
  by_cases hplain : (allowsPlain text && !isAmbiguous text) = true
  · rw [if_pos hplain]
    rw [Bool.and_eq_true, Bool.not_eq_true'] at hplain
    exact .inl ⟨rfl, hplain⟩
  · rw [if_neg hplain]
    by_cases hsingle : allowsSingle text = true
    · rw [if_pos hsingle]
      rw [allowsSingle, Bool.and_eq_true] at hsingle
      exact .inr (.inl ⟨rfl, hsingle.1⟩)
    · rw [if_neg hsingle]
      exact .inr (.inr rfl)

/-- What is written without quotes is not empty. -/
theorem of_plain {text : List Char} (h : Unbroken text) (hstyle : ofChars text = .plain) :
    text ≠ [] ∧ allowsPlain text = true := by
  rcases ofChars_cases h with ⟨-, hallows, hambiguous⟩ | ⟨hsingle, -⟩ | hdouble
  · refine ⟨?_, hallows⟩
    rintro rfl
    exact absurd hambiguous (by decide)
  · exact absurd (hstyle.symm.trans hsingle) (by decide)
  · exact absurd (hstyle.symm.trans hdouble) (by decide)

end Style

theorem textChars_plain {text : List Char} (h : Style.ofChars text = .plain) (column : Nat) :
    textChars column text = text := by
  rw [textChars, h]

theorem textChars_single {text : List Char} (h : Style.ofChars text = .single) (column : Nat) :
    textChars column text = '\'' :: (singleChars column false text ++ ['\'']) := by
  rw [textChars, h]

theorem textChars_double {text : List Char} (h : Style.ofChars text = .double) (column : Nat) :
    textChars column text = '"' :: (text.flatMap doubleChar ++ ['"']) := by
  rw [textChars, h]

/-! ### What is written -/

/-- The characters of a text without white space can stand on a line. -/
theorem writable_textChars {text : List Char} (h : Unbroken text) (column : Nat) :
    ∀ c ∈ textChars column text, Writable c := by
  have hprinted : Style.needsNoEscape text = true → ∀ c ∈ text, Writable c := fun hescape c hc =>
    writable_of_isPrintable (Style.all_isPrintable hescape c hc) (h c hc)
  rcases Style.ofChars_cases h with ⟨hstyle, hallows, -⟩ | ⟨hstyle, hescape⟩ | hstyle
  · rw [textChars_plain hstyle]
    exact hprinted (Style.of_allowsPlain hallows).1
  · have hquote : Writable '\'' := ⟨by decide, by decide⟩
    rw [textChars_single hstyle, singleChars_eq h]
    refine List.forall_mem_cons.2 ⟨hquote, List.forall_mem_append.2
      ⟨?_, List.forall_mem_singleton.2 hquote⟩⟩
    intro c hc
    obtain ⟨d, hd, hcd⟩ := List.mem_flatMap.1 hc
    rw [singleChar] at hcd
    split at hcd
    · rw [List.mem_cons, List.mem_singleton, or_self] at hcd
      exact hcd ▸ hquote
    · rw [List.mem_singleton] at hcd
      exact hcd ▸ hprinted hescape d hd
  · have hquote : Writable '"' := ⟨by decide, by decide⟩
    rw [textChars_double hstyle]
    refine List.forall_mem_cons.2 ⟨hquote, List.forall_mem_append.2
      ⟨?_, List.forall_mem_singleton.2 hquote⟩⟩
    intro c hc
    obtain ⟨d, hd, hcd⟩ := List.mem_flatMap.1 hc
    exact writable_doubleChar (h d hd) c hcd

theorem startsToken_of_allowsPlain {c : Char} {text : List Char} (h : Unbroken (c :: text))
    (hallows : Style.allowsPlain (c :: text) = true) : StartsToken c := by
  obtain ⟨hescape, hindicator, -, -⟩ := Style.of_allowsPlain hallows
  refine ⟨h c List.mem_cons_self, ?_, ?_⟩
  · rintro rfl
    exact absurd hindicator (by simp [Style.startsWithIndicator])
  · rintro rfl
    exact absurd (Style.all_isPrintable hescape _ List.mem_cons_self) (by decide)

/-- A text starts with a character with which a token can start. -/
theorem exists_textChars {text : List Char} (h : Unbroken text) (column : Nat) :
    ∃ c rest, textChars column text = c :: rest ∧ StartsToken c := by
  rcases Style.ofChars_cases h with ⟨hstyle, hallows, -⟩ | ⟨hstyle, -⟩ | hstyle
  · rw [textChars_plain hstyle]
    cases text with
    | nil => exact absurd rfl (Style.of_plain h hstyle).1
    | cons c text => exact ⟨c, text, rfl, startsToken_of_allowsPlain h hallows⟩
  · exact ⟨_, _, textChars_single hstyle column, by decide, by decide, by decide⟩
  · exact ⟨_, _, textChars_double hstyle column, by decide, by decide, by decide⟩

/-! ### How long it is -/

theorem utf8Len_flatMap_le {f : Char → List Char} (hf : ∀ c, String.utf8Len (f c) ≤ 4 * c.utf8Size)
    (text : List Char) : String.utf8Len (text.flatMap f) ≤ 4 * String.utf8Len text := by
  induction text with
  | nil => exact Nat.le_refl 0
  | cons c text ih =>
    have hc := hf c
    rw [List.flatMap_cons, String.utf8Len_append, String.utf8Len_cons]
    omega

theorem utf8Len_singleChar (c : Char) : String.utf8Len (singleChar c) ≤ 4 * c.utf8Size := by
  have hpos := c.utf8Size_pos
  rw [singleChar]
  split
  · have hquotes : String.utf8Len ['\'', '\''] = 2 := rfl
    omega
  · have hself : String.utf8Len [c] = c.utf8Size := Nat.zero_add _
    omega

theorem utf8Len_hexDigits (count n : Nat) : String.utf8Len (hexDigits count n) = count := by
  induction count generalizing n with
  | zero => rfl
  | succ count ih =>
    have hall : ∀ m < 16, String.utf8Len [hexDigit m] = 1 := by decide
    rw [hexDigits, String.utf8Len_append, ih, hall (n % 16) (Nat.mod_lt n (by decide))]

theorem two_le_utf8Size {c : Char} (h : 0x7F < c.toNat) : 2 ≤ c.utf8Size := by
  have hpos := c.utf8Size_pos
  have hone : c.utf8Size ≠ 1 := by
    rw [ne_eq, Char.utf8Size_eq_one_iff, UInt32.le_iff_toNat_le]
    exact Nat.not_le_of_gt h
  omega

theorem three_le_utf8Size {c : Char} (h : 0x7FF < c.toNat) : 3 ≤ c.utf8Size := by
  have htwo : 2 ≤ c.utf8Size := two_le_utf8Size (Nat.lt_trans (by decide) h)
  have hne : c.utf8Size ≠ 2 := by
    rw [ne_eq, Char.utf8Size_eq_two_iff, UInt32.le_iff_toNat_le]
    exact fun hle => Nat.not_le_of_gt h hle.2
  omega

theorem utf8Len_escapeCode (c : Char) : String.utf8Len (escapeCode c) < 4 * c.utf8Size := by
  have hpos := c.utf8Size_pos
  have hmark : 'x'.utf8Size = 1 ∧ 'u'.utf8Size = 1 ∧ 'U'.utf8Size = 1 := by decide
  rw [escapeCode]
  split
  · rw [String.utf8Len_cons, utf8Len_hexDigits]
    omega
  · rename_i hshort
    split
    · have htwo : 2 ≤ c.utf8Size := two_le_utf8Size (by omega)
      rw [String.utf8Len_cons, utf8Len_hexDigits]
      omega
    · have hthree : 3 ≤ c.utf8Size := three_le_utf8Size (by omega)
      rw [String.utf8Len_cons, utf8Len_hexDigits]
      omega

theorem utf8Len_doubleChar (c : Char) : String.utf8Len (doubleChar c) ≤ 4 * c.utf8Size := by
  have hpos := c.utf8Size_pos
  have hbackslash : '\\'.utf8Size = 1 := by decide
  rw [doubleChar]
  split
  · rename_i letter hletter
    have hescape : String.utf8Len ['\\', letter] = 2 := by
      unfold escapeLetter? at hletter
      split at hletter <;> cases hletter <;> rfl
    omega
  · split
    · have hself : String.utf8Len [c] = c.utf8Size := Nat.zero_add _
      omega
    · have hcode := utf8Len_escapeCode c
      rw [String.utf8Len_cons]
      omega

/-- A text has at most four times its octets in quotes. -/
theorem utf8Len_textChars {text : List Char} (h : Unbroken text) (column : Nat) :
    String.utf8Len (textChars column text) ≤ 4 * String.utf8Len text + 2 := by
  rcases Style.ofChars_cases h with ⟨hstyle, -⟩ | ⟨hstyle, -⟩ | hstyle
  · rw [textChars_plain hstyle]
    omega
  · have hle := utf8Len_flatMap_le utf8Len_singleChar text
    have hquote : String.utf8Len ['\''] = 1 := rfl
    have hsize : '\''.utf8Size = 1 := rfl
    rw [textChars_single hstyle, singleChars_eq h, String.utf8Len_cons, String.utf8Len_append]
    omega
  · have hle := utf8Len_flatMap_le utf8Len_doubleChar text
    have hquote : String.utf8Len ['"'] = 1 := rfl
    have hsize : '"'.utf8Size = 1 := rfl
    rw [textChars_double hstyle, String.utf8Len_cons, String.utf8Len_append]
    omega

/-! ### Reading without quotes -/

theorem atGap_append {text : List Char} (htext : Unbroken text)
    (hgap : Style.isFollowedByGap text = false) (p : Position) (stop : List Char) :
    Spot.atGap (spotsAt p (text ++ stop)) = false := by
  cases text with
  | nil => cases hgap
  | cons c text =>
    have hc := htext c List.mem_cons_self
    show (isBlank c || isBreak c) = false
    rw [isBlank_eq_false hc, isBreak_eq_false hc, Bool.or_false]

namespace Blocks

variable {b : Blocks} {keyAllowed : Bool} {p : Position}

/-- With a character that starts a text without quotes, the scanner starts one as well. -/
theorem startsPlain_of_not_indicator {c : Char}
    (hindicators : "#,[]\x7b\x7d&*!|>'\"%@`".toList.contains c = false) {rest : List Spot}
    (hgap : c = '?' ∨ c = ':' ∨ c = '-' → Spot.atGap rest = false) :
    Scanner.startsPlain false c rest = true := by
  by_cases hdash : c = '-'
  · rw [Scanner.startsPlain, if_pos (beq_iff_eq.2 hdash)]
  · by_cases hmark : c = '?' ∨ c = ':'
    · have hnear : Spot.atGap rest = false := hgap (hmark.imp_right .inl)
      rcases hmark with rfl | rfl <;> simp [Scanner.startsPlain, hnear]
    · rw [not_or] at hmark
      simp only [String.reduceToList, List.contains_eq_mem, List.mem_cons, List.not_mem_nil,
        or_false, Bool.decide_or, Bool.or_eq_false_iff, decide_eq_false_iff_not] at hindicators
      simp [Scanner.startsPlain, Scanner.isIndicator, isFlowIndicator, hdash, hmark, hindicators]

/-- A text that can be written without quotes is taken for one without quotes. -/
theorem readToken_plain {c : Char} {text stop : List Char} (htext : Unbroken (c :: text))
    (hindicator : Style.startsWithIndicator (c :: text) = false)
    (hmark : Spot.atDocumentMark (spotsAt p (c :: (text ++ stop))) = false) :
    (b.scanner keyAllowed none (spotsAt p (c :: (text ++ stop)))).readToken (p.spot c)
        (spotsAt (p.next c) (text ++ stop)) =
      (b.scanner keyAllowed none (spotsAt p (c :: (text ++ stop)))).readPlain (p.spot c) := by
  have hrest : Spot.atDocumentMark
      (b.scanner keyAllowed none (spotsAt p (c :: (text ++ stop)))).rest = false := hmark
  have hflow : (b.scanner keyAllowed none (spotsAt p (c :: (text ++ stop)))).inFlow = false := rfl
  rw [Style.startsWithIndicator, Bool.or_eq_false_iff] at hindicator
  obtain ⟨hindicators, hpair⟩ := hindicator
  have hgap : c = '?' ∨ c = ':' ∨ c = '-' →
      Spot.atGap (spotsAt (p.next c) (text ++ stop)) = false := by
    intro hcases
    refine atGap_append (List.forall_mem_cons.1 htext).2 ?_ _ _
    rcases hcases with rfl | rfl | rfl <;> simpa using hpair
  have hstarts := startsPlain_of_not_indicator hindicators hgap
  have hblank := isBlank_eq_false (htext c List.mem_cons_self)
  simp only [String.reduceToList, List.contains_eq_mem, List.mem_cons, List.not_mem_nil, or_false,
    Bool.decide_or, Bool.or_eq_false_iff, decide_eq_false_iff_not] at hindicators
  rw [Scanner.readToken, hrest, hflow]
  by_cases hcase : c = '?' ∨ c = ':' ∨ c = '-'
  · simp [hindicators, hgap hcase, hstarts, hblank]
  · simp only [not_or] at hcase
    simp [hindicators, hcase, hstarts, hblank]

/-- A text without quotes leads to what ends it. -/
theorem leadsTo_plain (keyAllowed : Bool) {text : List Char} (htext : Unbroken text)
    (hne : text ≠ []) (hallows : Style.allowsPlain text = true) {next : Char}
    (hnext : next = ':' ∨ next = '\n') {stop : List Char} {broken : Bool} {behind : List Spot}
    (hcolumn : b.indent ≤ p.column)
    (hplain : readPlain false (b.indent + 1) Gap.none (spotsAt (p.after text) (next :: stop)) =
      .ok ⟨[], broken, behind⟩) :
    ∃ first, (b.scanner keyAllowed none (spotsAt p (text ++ next :: stop))).LeadsTo 1
      ((b.add [.scalar text true]).scanner broken (b.keyPlace keyAllowed (p.spot first))
        behind) := by
  obtain ⟨-, hindicator, hmark, hvalue⟩ := Style.of_allowsPlain hallows
  cases text with
  | nil => exact absurd rfl hne
  | cons c text =>
    have hnoMark : Spot.atDocumentMark (spotsAt p (c :: text ++ next :: stop)) = false :=
      atDocumentMark_eq_false fun _ => startsWithMark_append hne hmark hnext stop
    rw [List.cons_append] at hnoMark ⊢
    refine ⟨c, leadsTo_token (startsToken_of_allowsPlain htext hallows) rfl hcolumn ?_⟩
    rw [readToken_plain htext hindicator hnoMark, Scanner.readPlain, saveKey_scanner]
    show readPlain false (b.indent + 1) Gap.none (spotsAt p (c :: text ++ next :: stop)) >>= _ = _
    rw [readPlain_append htext hvalue (fun _ _ => hnoMark) hplain]
    rfl

theorem readToken_quote {c : Char} (hc : c = '"' ∨ c = '\'') (text : List Char) :
    (b.scanner keyAllowed none (spotsAt p (c :: text))).readToken (p.spot c)
        (spotsAt (p.next c) text) =
      (b.scanner keyAllowed none (spotsAt p (c :: text))).readQuoted (c == '"') (p.spot c)
        (spotsAt (p.next c) text) := by
  have hmark :
      Spot.atDocumentMark (b.scanner keyAllowed none (spotsAt p (c :: text))).rest = false :=
    atDocumentMark_eq_false fun _ => by rcases hc with rfl | rfl <;> rfl
  rw [Scanner.readToken, hmark]
  rcases hc with rfl | rfl <;> simp

/-- A text in quotes leads to what is behind them. -/
theorem leadsTo_quoted (keyAllowed : Bool) {text : List Char} (htext : Unbroken text)
    (hstyle : Style.ofChars text ≠ .plain) (column : Nat) {next : Char}
    (hnext : next = ':' ∨ next = '\n') (stop : List Char) (hcolumn : b.indent ≤ p.column) :
    ∃ first, (b.scanner keyAllowed none
        (spotsAt p (textChars column text ++ next :: stop))).LeadsTo 1
      ((b.add [.scalar text false]).scanner false (b.keyPlace keyAllowed (p.spot first))
        (spotsAt (p.after (textChars column text)) (next :: stop))) := by
  rcases Style.ofChars_cases htext with ⟨hplain, -⟩ | ⟨hsingle, -⟩ | hdouble
  · exact absurd hplain hstyle
  · have hquote : (next :: stop).head? ≠ some '\'' := by
      rcases hnext with rfl | rfl <;> exact fun h => absurd (Option.some.inj h) (by decide)
    have hread := readSingle_append htext hquote column (p := p.next '\'')
      (column_next (by decide) p)
    rw [textChars_single hsingle, List.cons_append, List.append_assoc]
    refine ⟨'\'', leadsTo_token ⟨by decide, by decide, by decide⟩ rfl hcolumn ?_⟩
    rw [readToken_quote (.inr rfl), Scanner.readQuoted, saveKey_scanner]
    show readSingle Gap.none (spotsAt (p.next '\'')
      (singleChars column false text ++ '\'' :: next :: stop)) >>= _ = _
    rw [hread]
    rfl
  · have hread := readDouble_append htext (next :: stop) (p := p.next '"')
      (column_next (by decide) p)
    rw [textChars_double hdouble, List.cons_append, List.append_assoc]
    refine ⟨'"', leadsTo_token ⟨by decide, by decide, by decide⟩ rfl hcolumn ?_⟩
    rw [readToken_quote (.inl rfl), Scanner.readQuoted, saveKey_scanner]
    show readDouble Gap.none .between (spotsAt (p.next '"')
      (text.flatMap doubleChar ++ '"' :: next :: stop)) >>= _ = _
    rw [hread]
    rfl

/-! ### Values and keys -/

/-- Behind the end of its line, a value is at an end. -/
theorem leadsTo_lineEnd {outer : Blocks} {key : Position} (hrequired : outer.indent ≠ key.column)
    (hline : key.line ≤ p.line) (wasAllowed : Bool) (first : Char) {indent : Int}
    {rest : List Char} (h : GoesOn indent rest) :
    (b.scanner keyAllowed (outer.keyPlace wasAllowed (key.spot first))
        (spotsAt p ('\n' :: rest))).LeadsTo 0
      (b.scanner true none (spotsAt (p.next '\n') rest)) :=
  (Scanner.LeadsTo.of_toToken (toToken_feed p rest)).trans
    (leadsTo_stale hrequired (Nat.lt_succ_of_le hline) wasAllowed first h)

/-- A text without quotes as a value. -/
theorem leadsTo_word {text : List Char} (htext : Unbroken text) (hne : text ≠ [])
    (hallows : Style.allowsPlain text = true) (hcolumn : b.indent < p.column) {rest : List Char}
    (h : GoesOn b.indent rest) :
    (b.scanner keyAllowed none (spotsAt p (text ++ '\n' :: rest))).LeadsTo 1
      ((b.add [.scalar text true]).scanner true none
        (spotsAt (p.after (text ++ ['\n'])) rest)) := by
  obtain ⟨first, hlead⟩ := leadsTo_plain keyAllowed htext hne hallows (.inr rfl)
    (Int.le_of_lt hcolumn) (readPlain_feed (p.after text) h)
  have hline : p.line < ((p.after text).next '\n').line := by
    rw [Position.after_of_not_mem fun hmem => ne_feed (htext _ hmem) rfl]
    exact Nat.lt_succ_self _
  rw [Position.after_append]
  exact (hlead.trans (.of_toToken (toToken_tokenSpots h _))).trans
    (leadsTo_stale (Int.ne_of_lt hcolumn) hline keyAllowed first h)

/-- A text as a value. -/
theorem leadsTo_scalar {text : List Char} (htext : Unbroken text) (column : Nat)
    (hcolumn : b.indent < p.column) {rest : List Char} (h : GoesOn b.indent rest) :
    (b.scanner keyAllowed none (spotsAt p (textChars column text ++ '\n' :: rest))).LeadsTo 1
      ((b.add [.scalar text (Style.ofChars text == .plain)]).scanner true none
        (spotsAt (p.after (textChars column text ++ ['\n'])) rest)) := by
  by_cases hstyle : Style.ofChars text = .plain
  · obtain ⟨hne, hallows⟩ := Style.of_plain htext hstyle
    rw [textChars_plain hstyle, hstyle]
    exact leadsTo_word htext hne hallows hcolumn h
  · obtain ⟨first, hlead⟩ := leadsTo_quoted keyAllowed htext hstyle column
      (.inr rfl) rest (Int.le_of_lt hcolumn)
    have hline : p.line ≤ (p.after (textChars column text)).line := by
      rw [Position.after_of_not_mem (not_mem_feed (writable_textChars htext column))]
    rw [Position.after_append, beq_eq_false_iff_ne.2 hstyle]
    exact hlead.trans (leadsTo_lineEnd (Int.ne_of_lt hcolumn) hline keyAllowed first h)

/-- A text as a key without an indicator, and the colon behind it. -/
theorem leadsTo_simpleKey {key : List Char} (hkey : Unbroken key)
    (hsize : String.utf8Len key ≤ 128) (column : Nat) {next : Char}
    (hnext : next = ' ' ∨ next = '\n') (hcolumn : b.indent ≤ p.column) (rest : List Char) :
    (b.scanner true none (spotsAt p (textChars column key ++ ':' :: next :: rest))).LeadsTo 2
      (((b.enter p.column .blockMapping).add
          [.key, .scalar key (Style.ofChars key == .plain), .value]).scanner false none
        (spotsAt (p.after (textChars column key ++ [':'])) (next :: rest))) := by
  have hread : ∃ first, (b.scanner true none
      (spotsAt p (textChars column key ++ ':' :: next :: rest))).LeadsTo 1
        ((b.add [.scalar key (Style.ofChars key == .plain)]).scanner false
          (b.keyPlace true (p.spot first))
          (spotsAt (p.after (textChars column key)) (':' :: next :: rest))) := by
    by_cases hstyle : Style.ofChars key = .plain
    · obtain ⟨hne, hallows⟩ := Style.of_plain hkey hstyle
      rw [textChars_plain hstyle, hstyle]
      exact leadsTo_plain true hkey hne hallows (.inl rfl) hcolumn
        (readPlain_colon (p.after key) _ hnext rest)
    · rw [beq_eq_false_iff_ne.2 hstyle]
      exact leadsTo_quoted true hkey hstyle column (.inl rfl) (next :: rest) hcolumn
  obtain ⟨first, hlead⟩ := hread
  have hafter := Position.after_of_not_mem (not_mem_feed (writable_textChars hkey column)) p
  have hlength := utf8Len_textChars hkey column
  have hline : (p.after (textChars column key)).line = p.line := by rw [hafter]
  have hindex : (p.after (textChars column key)).index ≤ p.index + 1024 := by
    rw [hafter]
    show p.index + String.utf8Len (textChars column key) ≤ _
    omega
  have hdeep : b.indent ≤ (p.after (textChars column key)).column := by
    rw [hafter]
    show b.indent ≤ ((p.column + (textChars column key).length : Nat) : Int)
    omega
  rw [Position.after_append]
  exact hlead.trans (leadsTo_colon first key _ hnext hline hindex hdeep rest)

end Blocks

end ApiShorthand.Yaml
