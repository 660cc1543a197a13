import ApiShorthand.Decimal.Shortest

/-!
# Written decimals

How a number is laid out: positionally while its leading digit stands within fixed bounds, with at
least one digit on either side of the point, and otherwise with an exponent.
-/

namespace ApiShorthand.Decimal

/-- The decisions of a notation for floating-point numbers. -/
structure Notation where
  /-- The least exponent of a leading digit that is written positionally. -/
  positionalFrom : Int
  /-- The greatest exponent of a leading digit that is written positionally. -/
  positionalTo : Int
  /-- The sign in front of an exponent that is not negative. -/
  positiveExponentSign : List Char
deriving DecidableEq, Repr

/-- The decimal digits of a natural number. -/
def natDigits (n : Nat) : List Char :=
  Nat.toDigits 10 n

/-- An integer in decimal digits, with a minus sign if it is negative. -/
def intDigits : Int → List Char
  | .ofNat n => natDigits n
  | .negSucc n => '-' :: natDigits (n + 1)

namespace Notation

/-- Digits with a point in positional notation; `lead` is the exponent of the first digit. -/
def positional (digits : List Char) (lead : Int) : List Char :=
  if lead < 0 then '0' :: '.' :: (List.replicate (-lead - 1).toNat '0' ++ digits)
  else
    let whole := (lead + 1).toNat
    let padded := digits ++ List.replicate (whole - digits.length) '0'
    let fraction := padded.drop whole
    padded.take whole ++ '.' :: (if fraction.isEmpty then ['0'] else fraction)

/-- Digits with a point behind the first one and the exponent of the first one. -/
def scientific (style : Notation) (digits : List Char) (lead : Int) : List Char :=
  let point := if digits.length > 1 then digits.take 1 ++ '.' :: digits.drop 1 else digits
  let sign := if lead < 0 then ['-'] else style.positiveExponentSign
  point ++ 'e' :: (sign ++ natDigits lead.natAbs)

/-- The text of a decimal. -/
def layOut (style : Notation) (d : Decimal) : List Char :=
  let digits := natDigits d.digits
  let lead := d.exponent + digits.length - 1
  if style.positionalFrom ≤ lead ∧ lead ≤ style.positionalTo then positional digits lead
  else style.scientific digits lead

/-- The text of a finite floating-point number. -/
def write (style : Notation) (x : Float) : List Char :=
  let bits := x.toBits
  let sign := if bits >>> 63 = 1 then ['-'] else []
  let magnitude := bits &&& 0x7FFFFFFFFFFFFFFF
  if magnitude = 0 then sign ++ ['0', '.', '0']
  else sign ++ style.layOut (Binary.ofBits magnitude).shortest

end Notation

/-- The notation of JSON texts. -/
def jsonNotation : Notation where
  positionalFrom := -5
  positionalTo := 15
  positiveExponentSign := ['+']

/-- The notation of YAML texts. -/
def yamlNotation : Notation where
  positionalFrom := -5
  positionalTo := 15
  positiveExponentSign := []

end ApiShorthand.Decimal
