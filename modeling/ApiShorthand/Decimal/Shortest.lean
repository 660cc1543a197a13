/-!
# Shortest decimals

A finite binary floating-point number stands for every real that rounds to it, an interval around
its exact value. `Binary.shortest` selects a decimal in that interval: one with the fewest digits,
of two such the nearer, on an exact tie the one with an even last digit. Everything is exact
arithmetic on naturals.
-/

namespace ApiShorthand

/-- The decimal `digits * 10 ^ exponent`. -/
structure Decimal where
  /-- The digits, read as one number. -/
  digits : Nat
  /-- The power of ten of the last digit. -/
  exponent : Int
deriving DecidableEq, Repr

/-- A positive finite binary floating-point number, `significand * 2 ^ exponent`. -/
structure Binary where
  /-- The significand. -/
  significand : Nat
  /-- The power of two. -/
  exponent : Int
  /-- Whether the gap to the next number below is half the gap to the next number above. -/
  narrowBelow : Bool
deriving DecidableEq, Repr

namespace Binary

/-- The number with these bits in the double format, its sign left out. The bits are not those of
an infinity or of no number. -/
def ofBits (bits : UInt64) : Binary :=
  let exponent := ((bits >>> 52) &&& 0x7FF).toNat
  let fraction := (bits &&& 0xFFFFFFFFFFFFF).toNat
  if exponent = 0 then ⟨fraction, -1074, false⟩
  else ⟨Nat.pow 2 52 + fraction, (exponent : Int) - 1075, fraction = 0 && exponent > 1⟩

/-- Compares `a * 10 ^ i` with `n * 2 ^ j`. -/
def compareScaled (a : Nat) (i : Int) (n : Nat) (j : Int) : Ordering :=
  compare (a * Nat.pow 10 i.toNat * Nat.pow 2 (-j).toNat)
    (n * Nat.pow 2 j.toNat * Nat.pow 10 (-i).toNat)

/-- Whether a decimal is among the reals that round to the number, to nearest with ties to the
even significand. In quarters of the last place the interval runs from two, or one below a power
of two, under the exact value to two above it. -/
def readsBack (x : Binary) (d : Decimal) : Bool :=
  let low := if x.narrowBelow then 4 * x.significand - 1 else 4 * x.significand - 2
  let high := 4 * x.significand + 2
  let closed := x.significand % 2 == 0
  let fromLow := compareScaled d.digits d.exponent low (x.exponent - 2)
  let fromHigh := compareScaled d.digits d.exponent high (x.exponent - 2)
  (fromLow == .gt || (closed && fromLow == .eq)) && (fromHigh == .lt || (closed && fromHigh == .eq))

/-- The least `k` from `start` on, at most `steps` later, with the number below `10 ^ k`. -/
def scaleFrom (x : Binary) : Nat → Int → Int
  | 0, start => start
  | steps + 1, start =>
    if compareScaled 1 start x.significand x.exponent == .gt then start
    else scaleFrom x steps (start + 1)

/-- The least `k` with the number below `10 ^ k`. The binary logarithm gives it up to a few. -/
def scale (x : Binary) : Int :=
  scaleFrom x 5 (((x.significand.log2 : Int) + x.exponent) * 30103 / 100000 - 1)

/-- The decimal with last place `10 ^ place` that is selected, if one reads back. -/
def onGrid? (x : Binary) (place : Int) : Option Decimal :=
  let num := x.significand * Nat.pow 2 x.exponent.toNat * Nat.pow 10 (-place).toNat
  let den := Nat.pow 2 (-x.exponent).toNat * Nat.pow 10 place.toNat
  let below := num / den
  match x.readsBack ⟨below, place⟩, x.readsBack ⟨below + 1, place⟩ with
  | false, false => none
  | true, false => some ⟨below, place⟩
  | false, true => some ⟨below + 1, place⟩
  | true, true =>
    match compare (2 * num) ((2 * below + 1) * den) with
    | .lt => some ⟨below, place⟩
    | .gt => some ⟨below + 1, place⟩
    | .eq => if below % 2 = 0 then some ⟨below, place⟩ else some ⟨below + 1, place⟩

/-- The exact value as a decimal. -/
def exact (x : Binary) : Decimal :=
  ⟨x.significand * Nat.pow 2 x.exponent.toNat * Nat.pow 5 (-x.exponent).toNat, min x.exponent 0⟩

/-- The decimal without zeros at its end, of which at most `steps` are removed. -/
def dropZeros : Nat → Decimal → Decimal
  | 0, d => d
  | steps + 1, d =>
    if d.digits % 10 = 0 then dropZeros steps ⟨d.digits / 10, d.exponent + 1⟩ else d

/-- The decimal with the fewest digits that reads back. Seventeen digits always suffice; the exact
value stands in where none of them did. -/
def shortest (x : Binary) : Decimal :=
  let k := x.scale
  match (List.range 17).findSome? fun n => x.onGrid? (k - (n + 1 : Nat)) with
  | some d => dropZeros 17 d
  | none => x.exact

end Binary

end ApiShorthand
