import MovieCatalog.Binary64.Shortest

/-!
# The text of a finite value

A layout says where a number is written plainly, whether a whole number keeps a point and a zero,
and which way a tie between two shortest forms goes. Numbers that are not written plainly have one
digit before the point and a power of ten with its sign.
-/

namespace MovieCatalog.Binary64

/-- How finite values are written. -/
structure Layout where
  /-- The weights of the first digit at which a number is written without a power of ten. -/
  plain : Int → Bool
  /-- Whole numbers end in `.0`. -/
  pointZero : Bool
  /-- The choice between two equally near shortest forms. -/
  tie : Tie

namespace Layout

/-- A number in plain form. `digits` are its digits, the last one of weight `10^exponent`. -/
def plainText (l : Layout) (digits : List Char) (exponent : Int) : List Char :=
  let n : Int := digits.length
  if 0 ≤ exponent then
    digits ++ List.replicate exponent.toNat '0' ++ (if l.pointZero then ".0".toList else [])
  else if 0 < n + exponent then
    let before := (n + exponent).toNat
    digits.take before ++ '.' :: digits.drop before
  else "0.".toList ++ List.replicate (-(n + exponent)).toNat '0' ++ digits

/-- A number with a power of ten, its first digit of weight `10^weight`. -/
def scaledText (digits : List Char) (weight : Int) : List Char :=
  let mantissa :=
    match digits with
    | d :: rest => if rest.isEmpty then [d] else d :: '.' :: rest
    | [] => []
  mantissa ++ 'e' :: (if weight < 0 then '-' else '+') :: Numeral.ofNat weight.natAbs

/-- The text of a decimal number that is not zero. -/
def decimalText (l : Layout) (d : Decimal) : List Char :=
  let digits := Numeral.ofNat d.digits
  let weight := d.exponent + digits.length - 1
  if l.plain weight then l.plainText digits d.exponent else scaledText digits weight

/-- The text of a finite value. -/
def text (l : Layout) (negative : Bool) (ordinal : Fin ordinalBound) : List Char :=
  let body :=
    if ordinal.val = 0 then l.plainText ['0'] 0 else l.decimalText (shortest l.tie ordinal)
  if negative then '-' :: body else body

end Layout

end MovieCatalog.Binary64
