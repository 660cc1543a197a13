import ApiShorthand.Json.Printer
import ApiShorthand.Proofs.Json.Grammar

/-!
# Strings

A character is read from each of its written forms, whatever stands behind it
(`readStringTail?_charText`), and so is a string up to its closing quote (`readStringTail?_append`).
The form in which a character is printed is one of them (`charText_escape`).
-/

namespace ApiShorthand.Json

/-! ### Reading strings -/

theorem unescapeLetter?_of_mem_escapes {letter c : Char} (h : (letter, c) ∈ escapes) :
    unescapeLetter? letter = some c := by
  have hall : ∀ escape ∈ escapes, unescapeLetter? escape.1 = some escape.2 := by decide
  exact hall _ h

/-- What is read behind one character is read behind the other characters of a string, too. -/
theorem readStringTail?_charText {written : List Char} {c : Char} (h : CharText written c)
    (text : List Char) :
    readStringTail? (written ++ text) =
      (readStringTail? text).map fun (tail, rest) => (c :: tail, rest) := by
  cases h with
  | plain hcontrol hquote hbackslash =>
    have hplain : (decide (c.toNat < 0x20) || c == '\\') = false := by
      simp [hbackslash, hcontrol]
    rw [List.singleton_append, readStringTail?, hplain, Option.map_eq_bind]
    · rfl
    · exact hquote
    · exact fun _ _ _ _ _ h => absurd h hbackslash
    · exact fun _ _ h => absurd h hbackslash
  | @letter letter c h =>
    have hletter := unescapeLetter?_of_mem_escapes h
    have hu : letter ≠ 'u' := by
      rintro rfl
      cases hletter
    show readStringTail? ('\\' :: letter :: text) = _
    rw [readStringTail?, hletter, Option.map_eq_bind]
    · rfl
    · exact fun _ _ _ _ _ h => absurd h hu
  | @code a b c d n hdigits hscalar =>
    have hhigh : (decide (0xD800 ≤ n) && decide (n ≤ 0xDBFF)) = false := by
      simp only [Bool.and_eq_false_iff, decide_eq_false_iff_not]
      omega
    have hlow : (decide (0xDC00 ≤ n) && decide (n ≤ 0xDFFF)) = false := by
      simp only [Bool.and_eq_false_iff, decide_eq_false_iff_not]
      omega
    show readStringTail? ('\\' :: 'u' :: a :: b :: c :: d :: text) = _
    rw [readStringTail?, hdigits, Option.bind_eq_bind, Option.bind_some, hhigh, hlow,
      Option.map_eq_bind]
    rfl
  | @pair a b c d a' b' c' d' high low hdigits hdigits' hhigh hlow =>
    have hhigh' : (decide (0xD800 ≤ high) && decide (high ≤ 0xDBFF)) = true := by
      rw [decide_eq_true hhigh.1, decide_eq_true hhigh.2]
      rfl
    have hlow' : (decide (0xDC00 ≤ low) && decide (low ≤ 0xDFFF)) = true := by
      rw [decide_eq_true hlow.1, decide_eq_true hlow.2]
      rfl
    show readStringTail?
      ('\\' :: 'u' :: a :: b :: c :: d :: '\\' :: 'u' :: a' :: b' :: c' :: d' :: text) = _
    rw [readStringTail?, hdigits, Option.bind_eq_bind, Option.bind_some, if_pos hhigh']
    show (hexValue4? a' b' c' d' >>= _) = _
    rw [hdigits', Option.bind_eq_bind, Option.bind_some, surrogatePair?, if_pos hlow',
      Option.map_eq_bind]
    rfl

/-- **A string is read up to its closing quote.** -/
theorem readStringTail?_append {tail characters : List Char} (h : StringTail tail characters)
    (rest : List Char) : readStringTail? (tail ++ rest) = some (characters, rest) := by
  induction h with
  | close => rfl
  | char hchar _ ih =>
    rw [List.append_assoc, readStringTail?_charText hchar, ih]
    rfl

/-! ### Printed strings -/

theorem mem_escapes_of_escapeLetter? {c letter : Char} (h : escapeLetter? c = some letter) :
    (letter, c) ∈ escapes := by
  unfold escapeLetter? at h
  split at h
  all_goals cases h
  all_goals decide

/-- A control character is the value of its four digits. -/
theorem hexValue4?_control {n : Nat} (h : n < 32) :
    hexValue4? '0' '0' (hexDigit (n / 16)) (hexDigit (n % 16)) = some n := by
  revert n
  decide

/-- A character is printed in one of its written forms. -/
theorem charText_escape (c : Char) : CharText (escape c) c := by
  rw [escape]
  cases hletter : escapeLetter? c with
  | some letter => exact .letter (mem_escapes_of_escapeLetter? hletter)
  | none =>
    by_cases hcontrol : c.toNat < 0x20
    · have hcode := CharText.code (hexValue4?_control hcontrol) (by omega)
      rw [Char.ofNat_toNat] at hcode
      dsimp only
      rwa [if_pos hcontrol]
    · dsimp only
      rw [if_neg hcontrol]
      refine .plain (Nat.le_of_not_lt hcontrol) ?_ ?_
      · rintro rfl
        cases hletter
      · rintro rfl
        cases hletter

theorem stringTail_flatMap_escape (text : List Char) :
    StringTail (text.flatMap escape ++ ['"']) text := by
  induction text with
  | nil => exact .close
  | cons c text ih =>
    rw [List.flatMap_cons, List.append_assoc]
    exact .char (charText_escape c) ih

end ApiShorthand.Json
