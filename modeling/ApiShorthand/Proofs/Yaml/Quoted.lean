import ApiShorthand.Proofs.Yaml.Plain

/-!
# Texts in quotes

A text without white space that is written in quotes is read back (`readSingle_append`,
`readDouble_append`). In single quotes only the quote itself is doubled. In double quotes a
character is written as it is, as a letter behind a backslash, or as its code, from which
`readDouble_code` gets it back.
-/

namespace ApiShorthand.Yaml

open Printer

/-! ### In single quotes -/

/-- A character in single quotes. -/
def singleChar (c : Char) : List Char :=
  if c == '\'' then ['\'', '\''] else [c]

theorem singleChars_eq {text : List Char} (h : Unbroken text) (column : Nat) :
    singleChars column false text = text.flatMap singleChar := by
  induction text with
  | nil => rfl
  | cons c text ih =>
    obtain ⟨hc, hrest⟩ := List.forall_mem_cons.1 h
    rw [singleChars, isBreak_eq_false hc, if_neg Bool.false_ne_true, if_neg Bool.false_ne_true,
      List.nil_append, ih hrest, List.flatMap_cons]
    rfl

theorem readSingle_visible {c : Char} (hc : Text.isBlank c = false) (hne : c ≠ '\'')
    {p : Position} (hcolumn : p.column ≠ 0) (text : List Char) :
    readSingle Gap.none (spotsAt p (c :: text)) =
      (readSingle Gap.none (spotsAt (p.next c) text)).map (FlowScalar.prepend Gap.none c) := by
  have hmark := atDocumentMark_spotsAt hcolumn (c :: text)
  rw [spotsAt_cons] at hmark ⊢
  rw [readSingle.eq_def]
  simp [isBlank_eq_false hc, isBreak_eq_false hc, hmark, hne]

theorem readSingle_quotes {p : Position} (hcolumn : p.column ≠ 0) (text : List Char) :
    readSingle Gap.none (spotsAt p ('\'' :: '\'' :: text)) =
      (readSingle Gap.none (spotsAt ((p.next '\'').next '\'') text)).map
        (FlowScalar.prepend Gap.none '\'') := by
  rw [spotsAt_cons, readSingle.eq_def]
  simp [spotsAt_cons, Position.spot, isBlank, isBreak, Spot.atDocumentMark, hcolumn]

theorem readSingle_end {p : Position} (hcolumn : p.column ≠ 0) {stop : List Char}
    (hstop : stop.head? ≠ some '\'') :
    readSingle Gap.none (spotsAt p ('\'' :: stop)) =
      .ok ⟨[], false, spotsAt (p.next '\'') stop⟩ := by
  rw [spotsAt_cons, readSingle.eq_def]
  cases stop with
  | nil => simp [spotsAt, isBlank, isBreak, Spot.atDocumentMark, hcolumn, Gap.none, Gap.fold]
  | cons c stop =>
    have hne : c ≠ '\'' := fun h => hstop (congrArg some h)
    simp [spotsAt_cons, Position.spot, isBlank, isBreak, hne, Spot.atDocumentMark, hcolumn,
      Gap.none, Gap.fold]

/-- A text in single quotes is read back. -/
theorem readSingle_append {text stop : List Char} (htext : Unbroken text)
    (hstop : stop.head? ≠ some '\'') (column : Nat) {p : Position} (hcolumn : p.column ≠ 0) :
    readSingle Gap.none (spotsAt p (singleChars column false text ++ '\'' :: stop)) =
      .ok ⟨text, false, spotsAt (p.after (singleChars column false text ++ ['\''])) stop⟩ := by
  rw [singleChars_eq htext]
  induction text generalizing p with
  | nil => exact readSingle_end hcolumn hstop
  | cons c text ih =>
    obtain ⟨hc, hrest⟩ := List.forall_mem_cons.1 htext
    rw [List.flatMap_cons, List.append_assoc, List.append_assoc]
    by_cases hquote : c = '\''
    · subst hquote
      have hsecond : ((p.next '\'').next '\'').column ≠ 0 := column_next (by decide) _
      show readSingle Gap.none
        (spotsAt p ('\'' :: '\'' :: (text.flatMap singleChar ++ '\'' :: stop))) =
        .ok ⟨'\'' :: text, false, spotsAt (((p.next '\'').next '\'').after
          (text.flatMap singleChar ++ ['\''])) stop⟩
      rw [readSingle_quotes hcolumn, ih hrest hsecond]
      rfl
    · have hsingle : singleChar c = [c] := if_neg (fun h => hquote (beq_iff_eq.1 h))
      rw [hsingle]
      show readSingle Gap.none (spotsAt p (c :: (text.flatMap singleChar ++ '\'' :: stop))) =
        .ok ⟨c :: text, false, spotsAt ((p.next c).after (text.flatMap singleChar ++ ['\''])) stop⟩
      rw [readSingle_visible hc hquote hcolumn, ih hrest (column_next (ne_feed hc) p)]
      rfl

/-! ### Codes of characters -/

theorem hexValue?_hexDigit {n : Nat} (h : n < 16) : Text.hexValue? (hexDigit n) = some n := by
  have hall : ∀ m < 16, Text.hexValue? (hexDigit m) = some m := by decide
  exact hall n h

/-- The value of a code behind the last digits of a number. -/
def codeAfter (value : Nat) : (count : Nat) → Nat → Nat
  | 0, _ => value
  | count + 1, n => 16 * codeAfter value count (n / 16) + n % 16

/-- Digits that are not the last ones of a code are added to it. -/
theorem readDouble_digits (gap : Gap) (value left count n : Nat) (p : Position)
    (text : List Char) :
    readDouble gap (.code value (count + (left + 1))) (spotsAt p (hexDigits count n ++ text)) =
      readDouble gap (.code (codeAfter value count n) (left + 1))
        (spotsAt (p.after (hexDigits count n)) text) := by
  induction count generalizing n left text with
  | zero => rw [Nat.zero_add]; rfl
  | succ count ih =>
    have hcount : count + 1 + (left + 1) = count + (left + 1 + 1) := by omega
    have hlast : ¬ left + 1 + 1 ≤ 1 := by omega
    rw [hexDigits, List.append_assoc, hcount, ih, Position.after_append]
    show readDouble gap (.code _ (left + 1 + 1)) (spotsAt _ (hexDigit (n % 16) :: text)) = _
    rw [spotsAt_cons, readDouble, Position.char_spot, hexValue?_hexDigit (Nat.mod_lt n (by decide))]
    show (if left + 1 + 1 ≤ 1 then _ else _) = _
    rw [if_neg hlast]
    rfl

theorem charOfCode?_toNat (c : Char) : charOfCode? c.toNat = some c := by
  have hvalid : c.toNat.isValidChar := c.valid
  have hback := Char.ofNat_toNat c
  rw [Char.ofNat, dif_pos hvalid] at hback
  rw [charOfCode?, dif_pos hvalid, hback]

/-- The digits of a code, of which there are enough, are read as the character. -/
theorem readDouble_code (gap : Gap) (count : Nat) (c : Char)
    (hcode : codeAfter 0 (count + 1) c.toNat = c.toNat) (p : Position) (text : List Char) :
    readDouble gap (.code 0 (count + 1)) (spotsAt p (hexDigits (count + 1) c.toNat ++ text)) =
      (readDouble Gap.none .between (spotsAt (p.after (hexDigits (count + 1) c.toNat)) text)).map
        (FlowScalar.prepend gap c) := by
  have hvalue : 16 * codeAfter 0 count (c.toNat / 16) + c.toNat % 16 = c.toNat := hcode
  rw [hexDigits, List.append_assoc]
  rw [readDouble_digits gap 0 0, Position.after_append]
  show readDouble gap (.code _ 1) (spotsAt _ (hexDigit (c.toNat % 16) :: text)) = _
  rw [spotsAt_cons, readDouble, Position.char_spot, hexValue?_hexDigit (Nat.mod_lt _ (by decide))]
  show (if 1 ≤ 1 then _ else _) = _
  rw [if_pos (Nat.le_refl 1), hvalue, charOfCode?_toNat]
  rfl

/-! ### In double quotes -/

theorem escape?_escapeLetter? {c letter : Char} (h : escapeLetter? c = some letter) :
    isBreak letter = false ∧ escape? letter = some (.letter c) := by
  unfold escapeLetter? at h
  split at h <;> cases h <;> decide

theorem ne_of_escapeLetter? {c : Char} (h : escapeLetter? c = none) : c ≠ '"' ∧ c ≠ '\\' := by
  constructor
  · rintro rfl
    cases h
  · rintro rfl
    cases h

theorem readDouble_visible {c : Char} (hc : Text.isBlank c = false) (hne : c ≠ '"' ∧ c ≠ '\\')
    {p : Position} (hcolumn : p.column ≠ 0) (text : List Char) :
    readDouble Gap.none .between (spotsAt p (c :: text)) =
      (readDouble Gap.none .between (spotsAt (p.next c) text)).map
        (FlowScalar.prepend Gap.none c) := by
  have hmark := atDocumentMark_spotsAt hcolumn (c :: text)
  rw [spotsAt_cons] at hmark ⊢
  rw [readDouble, Position.char_spot, isBlank_eq_false hc, isBreak_eq_false hc, hmark,
    beq_eq_false_iff_ne.2 hne.1, beq_eq_false_iff_ne.2 hne.2]
  rfl

theorem readDouble_backslash {p : Position} (hcolumn : p.column ≠ 0) (text : List Char) :
    readDouble Gap.none .between (spotsAt p ('\\' :: text)) =
      readDouble Gap.none .escaped (spotsAt (p.next '\\') text) := by
  have hmark := atDocumentMark_spotsAt hcolumn ('\\' :: text)
  rw [spotsAt_cons] at hmark ⊢
  rw [readDouble, hmark]
  rfl

theorem readDouble_letter {c letter : Char} (h : escapeLetter? c = some letter) (p : Position)
    (text : List Char) :
    readDouble Gap.none .escaped (spotsAt p (letter :: text)) =
      (readDouble Gap.none .between (spotsAt (p.next letter) text)).map
        (FlowScalar.prepend Gap.none c) := by
  obtain ⟨hbreak, hescape⟩ := escape?_escapeLetter? h
  rw [spotsAt_cons, readDouble, Position.char_spot, hbreak, hescape]
  rfl

theorem readDouble_mark {mark : Char} {count : Nat} (hbreak : isBreak mark = false)
    (h : escape? mark = some (.code count)) (p : Position) (text : List Char) :
    readDouble Gap.none .escaped (spotsAt p (mark :: text)) =
      readDouble Gap.none (.code 0 count) (spotsAt (p.next mark) text) := by
  rw [spotsAt_cons, readDouble, Position.char_spot, hbreak, h]
  rfl

/-- The code of a character is read as the character. -/
theorem readDouble_escapeCode (c : Char) (p : Position) (text : List Char) :
    readDouble Gap.none .escaped (spotsAt p (escapeCode c ++ text)) =
      (readDouble Gap.none .between (spotsAt (p.after (escapeCode c)) text)).map
        (FlowScalar.prepend Gap.none c) := by
  have hmax : c.toNat < 1114112 := by
    have hvalid := c.valid
    rcases hvalid with h | ⟨-, h⟩
    · exact Nat.lt_trans h (by decide)
    · exact h
  unfold escapeCode
  by_cases hshort : c.toNat ≤ 0xFF
  · have hcode : codeAfter 0 (1 + 1) c.toNat = c.toNat := by
      simp only [codeAfter]
      omega
    rw [if_pos hshort, List.cons_append, readDouble_mark (by decide) rfl,
      readDouble_code _ 1 c hcode, Position.after_cons]
  · rw [if_neg hshort]
    by_cases hmiddle : c.toNat ≤ 0xFFFF
    · have hcode : codeAfter 0 (3 + 1) c.toNat = c.toNat := by
        simp only [codeAfter]
        omega
      rw [if_pos hmiddle, List.cons_append, readDouble_mark (by decide) rfl,
        readDouble_code _ 3 c hcode, Position.after_cons]
    · have hcode : codeAfter 0 (7 + 1) c.toNat = c.toNat := by
        simp only [codeAfter]
        omega
      rw [if_neg hmiddle, List.cons_append, readDouble_mark (by decide) rfl,
        readDouble_code _ 7 c hcode, Position.after_cons]

/-- A character in double quotes is read back. -/
theorem readDouble_doubleChar {c : Char} (hc : Text.isBlank c = false) {p : Position}
    (hcolumn : p.column ≠ 0) (text : List Char) :
    readDouble Gap.none .between (spotsAt p (doubleChar c ++ text)) =
      (readDouble Gap.none .between (spotsAt (p.after (doubleChar c)) text)).map
        (FlowScalar.prepend Gap.none c) := by
  cases hletter : escapeLetter? c with
  | some letter =>
    have hchars : doubleChar c = ['\\', letter] := by rw [doubleChar, hletter]
    rw [hchars]
    show readDouble Gap.none .between (spotsAt p ('\\' :: letter :: text)) = _
    rw [readDouble_backslash hcolumn, readDouble_letter hletter]
    rfl
  | none =>
    have hchars : doubleChar c = if isPrintable c then [c] else '\\' :: escapeCode c := by
      rw [doubleChar, hletter]
    by_cases hprintable : isPrintable c = true
    · rw [hchars, if_pos hprintable, List.singleton_append,
        readDouble_visible hc (ne_of_escapeLetter? hletter) hcolumn]
      rfl
    · rw [hchars, if_neg hprintable, List.cons_append, readDouble_backslash hcolumn,
        readDouble_escapeCode]
      rfl

theorem readDouble_end {p : Position} (hcolumn : p.column ≠ 0) (stop : List Char) :
    readDouble Gap.none .between (spotsAt p ('"' :: stop)) =
      .ok ⟨[], false, spotsAt (p.next '"') stop⟩ := by
  have hmark := atDocumentMark_spotsAt hcolumn ('"' :: stop)
  rw [spotsAt_cons] at hmark ⊢
  rw [readDouble, hmark]
  rfl

theorem writable_hexDigits (count n : Nat) : ∀ d ∈ hexDigits count n, Writable d := by
  induction count generalizing n with
  | zero => exact nofun
  | succ count ih =>
    have hall : ∀ m < 16, isReadable (hexDigit m) = true ∧ isBreak (hexDigit m) = false := by
      decide
    rw [hexDigits]
    exact List.forall_mem_append.2
      ⟨ih (n / 16), List.forall_mem_singleton.2 (hall (n % 16) (Nat.mod_lt n (by decide)))⟩

theorem writable_escapeLetter? {c letter : Char} (h : escapeLetter? c = some letter) :
    Writable letter := by
  unfold escapeLetter? at h
  split at h <;> cases h <;> exact ⟨by decide, by decide⟩

theorem writable_escapeCode (c : Char) : ∀ d ∈ escapeCode c, Writable d := by
  unfold escapeCode
  split
  · exact List.forall_mem_cons.2 ⟨⟨by decide, by decide⟩, writable_hexDigits 2 _⟩
  · split
    · exact List.forall_mem_cons.2 ⟨⟨by decide, by decide⟩, writable_hexDigits 4 _⟩
    · exact List.forall_mem_cons.2 ⟨⟨by decide, by decide⟩, writable_hexDigits 8 _⟩

theorem writable_doubleChar {c : Char} (hc : Text.isBlank c = false) :
    ∀ d ∈ doubleChar c, Writable d := by
  have hbackslash : Writable '\\' := ⟨by decide, by decide⟩
  rw [doubleChar]
  split
  · rename_i letter hletter
    exact List.forall_mem_cons.2
      ⟨hbackslash, List.forall_mem_singleton.2 (writable_escapeLetter? hletter)⟩
  · split
    · rename_i hprintable
      exact List.forall_mem_singleton.2 (writable_of_isPrintable hprintable hc)
    · exact List.forall_mem_cons.2 ⟨hbackslash, writable_escapeCode c⟩

/-- A text in double quotes is read back. -/
theorem readDouble_append {text : List Char} (htext : Unbroken text) (stop : List Char)
    {p : Position} (hcolumn : p.column ≠ 0) :
    readDouble Gap.none .between (spotsAt p (text.flatMap doubleChar ++ '"' :: stop)) =
      .ok ⟨text, false, spotsAt (p.after (text.flatMap doubleChar ++ ['"'])) stop⟩ := by
  induction text generalizing p with
  | nil => exact readDouble_end hcolumn stop
  | cons c text ih =>
    obtain ⟨hc, hrest⟩ := List.forall_mem_cons.1 htext
    have hafter := column_after (writable_doubleChar hc) hcolumn
    rw [List.flatMap_cons, List.append_assoc, List.append_assoc,
      readDouble_doubleChar hc hcolumn, ih hrest hafter, Position.after_append p]
    rfl

end ApiShorthand.Yaml
