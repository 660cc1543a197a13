import ApiShorthand.Decimal.Shortest

/-!
# The nearest binary number

`Decimal.nearest` reads a decimal as a double: the one whose value is nearest, of two that are
equally near the one with the even significand, and an infinity from half a step above the
greatest finite double on. The quotient is exact arithmetic on naturals; only the last step puts
bits together.
-/

namespace ApiShorthand.Decimal

/-- The value of decimal digits, the first of which is the highest. -/
def ofDigits (digits : List Char) : Nat :=
  digits.foldl (fun n c => 10 * n + (c.toNat - 48)) 0

/-- The quotient of two naturals, rounded to the nearest natural and on a tie to the even one. -/
def roundDiv (num den : Nat) : Nat :=
  let below := num / den
  match compare (2 * (num % den)) den with
  | .lt => below
  | .gt => below + 1
  | .eq => if below % 2 = 0 then below else below + 1

/-- The bits of an infinity. -/
def infinityBits : Nat := 0x7FF * Nat.pow 2 52

/-- The bits of `num / den` rounded to a multiple of `2 ^ place`; `place` is at least `-1074` and
the rounded significand at most `2 ^ 53`. A significand of `2 ^ 53` carries into the exponent. -/
def bitsAt (num den : Nat) (place : Int) : Nat :=
  let significand := roundDiv (num * Nat.pow 2 (-place).toNat) (den * Nat.pow 2 place.toNat)
  let bits :=
    if significand < Nat.pow 2 52 then significand
    else (place + 1075).toNat * Nat.pow 2 52 + (significand - Nat.pow 2 52)
  min bits infinityBits

/-- The bits of the double nearest to `num / den`, which is positive. The binary logarithms give
the place of the last bit up to one. -/
def quotientBits (num den : Nat) : Nat :=
  let place := max ((num.log2 : Int) - den.log2 - 53) (-1074)
  let whole := num * Nat.pow 2 (-place).toNat / (den * Nat.pow 2 place.toNat)
  bitsAt num den (if whole < Nat.pow 2 53 then place else place + 1)

/-- The bits of the double nearest to a decimal. A decimal far out of range is zero or an
infinity, whatever its digits. -/
def nearestBits (d : Decimal) : Nat :=
  let lead := d.exponent + ((Nat.toDigits 10 d.digits).length : Int)
  if d.digits = 0 ∨ lead < -330 then 0
  else if lead > 310 then infinityBits
  else quotientBits (d.digits * Nat.pow 10 d.exponent.toNat) (Nat.pow 10 (-d.exponent).toNat)

/-- The double nearest to a decimal. -/
def nearest (d : Decimal) : Float :=
  Float.ofBits (UInt64.ofNat d.nearestBits)

/-! ### Examples -/

example : (⟨5, -324⟩ : Decimal).nearestBits = 1 := by decide +kernel

example : (⟨24703282292062327, -340⟩ : Decimal).nearestBits = 0 := by decide +kernel

example : (⟨24703282292062328, -340⟩ : Decimal).nearestBits = 1 := by decide +kernel

example : (⟨9007199254740993, 0⟩ : Decimal).nearestBits = 0x4340000000000000 := by decide +kernel

example : (⟨17976931348623157, 292⟩ : Decimal).nearestBits = infinityBits - 1 := by decide +kernel

example : (⟨17976931348623159, 292⟩ : Decimal).nearestBits = infinityBits := by decide +kernel

end ApiShorthand.Decimal
