import ApiShorthand.Decimal.Notation
import ApiShorthand.Proofs.Json.Grammar
import ApiShorthand.Proofs.Text.Word

/-!
# Numerals

A numeral is read as what it consists of, if the text behind it does not go on with the number
(`Numeral.take?_append`). The decimal digits of a natural number have its value and no zero in front
(`ofDigits_natDigits`, `head_natDigits`), so that an integer in range is written as a numeral that
means it (`exists_numeralText_intDigits`).
-/

namespace ApiShorthand

/-! ### Digits -/

namespace Decimal

theorem isDigit_of_mem_natDigits {n : Nat} {c : Char} (h : c ∈ natDigits n) : c.isDigit = true :=
  Nat.isDigit_of_mem_toDigits (by decide) (by decide) h

theorem natDigits_ne_nil (n : Nat) : natDigits n ≠ [] :=
  Nat.toDigits_ne_nil

theorem ofDigits_natDigits (n : Nat) : ofDigits (natDigits n) = n :=
  Nat.ofDigitChars_ten_toDigits

/-- A positive number is written without a zero in front. -/
theorem head_natDigits {n : Nat} (h : 0 < n) : ∀ c ∈ (natDigits n).head?, c ≠ '0' := by
  induction n using Nat.strongRecOn with
  | ind n ih =>
    rw [natDigits, Nat.toDigits_eq_if (by decide)]
    split_ifs with hn
    · intro c hc hzero
      have hcode : '0'.toNat = 48 + n := by
        rw [← Nat.toNat_digitChar_of_lt_ten hn, Option.mem_some.1 hc, hzero]
      have hzeroCode : '0'.toNat = 48 := rfl
      omega
    · have hquotient := ih (n / 10) (by omega) (by omega)
      rwa [List.head?_append_of_ne_nil _ Nat.toDigits_ne_nil]

theorem isWhole_natDigits (n : Nat) : Json.IsWhole (natDigits n) where
  ne_nil := natDigits_ne_nil n
  digits c := isDigit_of_mem_natDigits
  zero h := by
    rcases Nat.eq_zero_or_pos n with rfl | hn
    · rfl
    · exact absurd rfl (head_natDigits hn '0' h)

end Decimal

namespace Json

/-! ### Where numerals end -/

/-- A text in front of which a number is complete. -/
def EndsNumber (text : List Char) : Prop :=
  ∀ c ∈ text.head?, Text.isDigit c = false ∧ c ≠ '.' ∧ c ≠ 'e' ∧ c ≠ 'E'

theorem endsNumber_nil : EndsNumber [] := by
  intro c hc
  cases hc

theorem endsNumber_cons {c : Char}
    (h : Text.isDigit c = false ∧ c ≠ '.' ∧ c ≠ 'e' ∧ c ≠ 'E') (text : List Char) :
    EndsNumber (c :: text) := by
  intro d hd
  rwa [← Option.mem_some.1 hd]

/-! ### Reading numerals -/

namespace Numeral

variable {digits rest : List Char}

/-- Digits are taken up to the first character that is none. -/
theorem takeDigits?_append (hdigits : IsDigits digits)
    (hrest : ∀ c ∈ rest.head?, Text.isDigit c = false) :
    takeDigits? (digits ++ rest) = some (digits, rest) := by
  have hall : ∀ c ∈ digits, Text.isDigit c = true := hdigits.digits
  rw [takeDigits?, Text.takeWhile_append_eq hall hrest, Text.dropWhile_append_eq hall hrest]
  cases digits with
  | nil => exact absurd rfl hdigits.ne_nil
  | cons c digits => rfl

theorem takeWhole?_append (hwhole : IsWhole digits)
    (hrest : ∀ c ∈ rest.head?, Text.isDigit c = false) :
    takeWhole? (digits ++ rest) = some (digits, rest) := by
  have htake := takeDigits?_append hwhole.toIsDigits hrest
  cases digits with
  | nil => exact absurd rfl hwhole.ne_nil
  | cons c digits =>
    by_cases hc : c = '0'
    · subst hc
      rw [hwhole.zero rfl]
      rfl
    · rw [List.cons_append, takeWhole?]
      · exact htake
      · rintro _ ⟨⟩
        exact hc rfl

theorem takeFraction?_append {point fraction : List Char} (hfraction : FractionText point fraction)
    (hrest : ∀ c ∈ rest.head?, Text.isDigit c = false ∧ c ≠ '.') :
    takeFraction? (point ++ rest) = some (fraction, rest) := by
  cases hfraction with
  | none =>
    rw [List.nil_append, takeFraction?]
    rintro _ rfl
    exact (hrest '.' rfl).2 rfl
  | point hdigits => exact takeDigits?_append hdigits fun c hc => (hrest c hc).1

theorem takeSign_append {sign : List Char} {negative : Bool} (hsign : ExponentSign sign negative)
    (hdigits : IsDigits digits) :
    takeSign (sign ++ (digits ++ rest)) = (negative, digits ++ rest) := by
  cases hsign with
  | none =>
    cases digits with
    | nil => exact absurd rfl hdigits.ne_nil
    | cons c digits =>
      have hc : c.isDigit = true := hdigits.digits c List.mem_cons_self
      rw [List.nil_append, List.cons_append, takeSign]
      · rintro _ ⟨⟩
        revert hc
        decide
      · rintro _ ⟨⟩
        revert hc
        decide
  | plus => rfl
  | minus => rfl

theorem takeExponent?_append {letter : List Char} {exponent : Option (Bool × List Char)}
    (hexponent : ExponentText letter exponent) (hrest : EndsNumber rest) :
    takeExponent? (letter ++ rest) = some (exponent, rest) := by
  cases hexponent with
  | none =>
    cases rest with
    | nil => rfl
    | cons c rest =>
      obtain ⟨-, -, hlower, hupper⟩ := hrest c rfl
      rw [List.nil_append, takeExponent?, beq_eq_false_iff_ne.2 hlower,
        beq_eq_false_iff_ne.2 hupper]
      rfl
  | @some letter sign digits negative hletter hsign hdigits =>
    have hexp : (letter == 'e' || letter == 'E') = true := by
      rcases hletter with rfl | rfl
      · rfl
      · rfl
    have hdigitsRest := takeDigits?_append hdigits fun c hc => (hrest c hc).1
    rw [List.cons_append, List.append_assoc, takeExponent?, if_pos hexp,
      takeSign_append hsign hdigits]
    show (takeDigits? (digits ++ rest) >>= _) = _
    rw [hdigitsRest]
    rfl

/-! ### Where the parts of a numeral end -/

theorem head_exponent_append {letter : List Char} {exponent : Option (Bool × List Char)}
    (hexponent : ExponentText letter exponent) (hrest : EndsNumber rest) :
    ∀ c ∈ (letter ++ rest).head?, Text.isDigit c = false ∧ c ≠ '.' := by
  cases hexponent with
  | none => exact fun c hc => ⟨(hrest c hc).1, (hrest c hc).2.1⟩
  | some hletter hsign hdigits =>
    rintro c ⟨⟩
    rcases hletter with rfl | rfl
    · decide
    · decide

theorem head_fraction_append {point fraction : List Char} (hfraction : FractionText point fraction)
    (hrest : ∀ c ∈ rest.head?, Text.isDigit c = false ∧ c ≠ '.') :
    ∀ c ∈ (point ++ rest).head?, Text.isDigit c = false := by
  cases hfraction with
  | none => exact fun c hc => (hrest c hc).1
  | point hdigits =>
    rintro c ⟨⟩
    decide

/-! ### Whole numerals -/

theorem takeUnsigned?_append {whole point fraction letter : List Char} (negative : Bool)
    {exponent : Option (Bool × List Char)} (hwhole : IsWhole whole)
    (hfraction : FractionText point fraction) (hexponent : ExponentText letter exponent)
    (hrest : EndsNumber rest) :
    takeUnsigned? negative (whole ++ (point ++ (letter ++ rest))) =
      some (⟨negative, whole, fraction, exponent⟩, rest) := by
  have hletter := head_exponent_append hexponent hrest
  have hpoint := head_fraction_append hfraction hletter
  rw [takeUnsigned?, takeWhole?_append hwhole hpoint, Option.bind_eq_bind, Option.bind_some]
  dsimp only
  rw [takeFraction?_append hfraction hletter, Option.bind_some]
  dsimp only
  rw [takeExponent?_append hexponent hrest]
  rfl

/-- A text that starts with a digit has no sign. -/
theorem take?_of_isDigit {c : Char} (h : c.isDigit = true) (text : List Char) :
    take? (c :: text) = takeUnsigned? false (c :: text) := by
  rw [take?]
  rintro _ ⟨⟩
  revert h
  decide

/-- **A numeral is read as what it consists of.** -/
theorem take?_append {text : List Char} {numeral : Numeral} (h : NumeralText text numeral)
    (hrest : EndsNumber rest) : take? (text ++ rest) = some (numeral, rest) := by
  cases h with
  | @mk sign whole point fraction letter negative exponent hsign hwhole hfraction hexponent =>
    have htake := takeUnsigned?_append negative hwhole hfraction hexponent hrest
    simp only [List.append_assoc]
    cases hsign with
    | none =>
      cases whole with
      | nil => exact absurd rfl hwhole.ne_nil
      | cons c whole =>
        rw [List.nil_append, List.cons_append,
          take?_of_isDigit (hwhole.digits c List.mem_cons_self), ← List.cons_append, htake]
    | minus => exact htake

end Numeral

/-- A numeral starts with a digit or a minus sign. -/
theorem NumeralText.exists_eq_cons {text : List Char} {numeral : Numeral}
    (h : NumeralText text numeral) :
    ∃ c tail, text = c :: tail ∧ (Text.isDigit c = true ∨ c = '-') := by
  cases h with
  | @mk _ whole point _ letter _ _ hsign hwhole =>
    cases hsign with
    | none =>
      cases whole with
      | nil => exact absurd rfl hwhole.ne_nil
      | cons c whole => exact ⟨c, _, rfl, Or.inl (hwhole.digits c List.mem_cons_self)⟩
    | minus => exact ⟨'-', _, rfl, Or.inr rfl⟩

/-! ### Integers -/

namespace Numeral

theorem toInt?_natDigits {n : Nat} (h : (n : Int) ≤ maxInt) :
    toInt? ⟨false, Decimal.natDigits n, [], none⟩ = some (n : Int) := by
  have hwhole : isWhole ⟨false, Decimal.natDigits n, [], none⟩ = true := rfl
  rw [toInt?, if_pos hwhole]
  dsimp only
  rw [Decimal.ofDigits_natDigits, if_neg Bool.false_ne_true, if_pos h]

theorem toInt?_neg_natDigits {n : Nat} (hpos : 0 < n) (h : minInt ≤ -(n : Int)) :
    toInt? ⟨true, Decimal.natDigits n, [], none⟩ = some (-(n : Int)) := by
  have hwhole : isWhole ⟨true, Decimal.natDigits n, [], none⟩ = true := rfl
  rw [toInt?, if_pos hwhole]
  dsimp only
  rw [Decimal.ofDigits_natDigits, if_pos rfl, if_pos ⟨hpos, h⟩]

end Numeral

/-- **An integer in range is written as a numeral that means it.** -/
theorem exists_numeralText_intDigits {value : Int} (hmin : minInt ≤ value) (hmax : value ≤ maxInt) :
    ∃ numeral, NumeralText (Decimal.intDigits value) numeral ∧
      numeral.value? = some (.int value) := by
  cases value with
  | ofNat n =>
    refine ⟨⟨false, Decimal.natDigits n, [], none⟩, ?_, ?_⟩
    · have htext := NumeralText.mk .none (Decimal.isWhole_natDigits n) .none .none
      rwa [List.nil_append, List.append_nil, List.append_nil] at htext
    · rw [Numeral.value?, Numeral.toInt?_natDigits hmax]
      rfl
  | negSucc n =>
    refine ⟨⟨true, Decimal.natDigits (n + 1), [], none⟩, ?_, ?_⟩
    · have htext := NumeralText.mk .minus (Decimal.isWhole_natDigits (n + 1)) .none .none
      rwa [List.append_nil, List.append_nil] at htext
    · rw [Numeral.value?, Numeral.toInt?_neg_natDigits n.succ_pos hmin]
      rfl

end Json

end ApiShorthand
