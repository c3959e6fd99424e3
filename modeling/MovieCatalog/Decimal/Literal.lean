import MovieCatalog.Power

/-!
# Decimal literals

A literal is a sign, digits before and after a point, and a power of ten. It denotes the number
`± digits · 10^exponent` exactly, without a bound on size or precision.
-/

namespace MovieCatalog

/-- The number `digits · 10^exponent`. -/
structure Decimal where
  digits : Nat
  exponent : Int
deriving DecidableEq, Repr

namespace Decimal

/-- Two naturals whose quotient is the number, the second one positive. -/
def quotient (d : Decimal) : Nat × Nat :=
  (d.digits * tenTo d.exponent.toNat, tenTo (-d.exponent).toNat)

/-- The sign and the digits of a number, as written: `whole` before the point, `fraction` behind
it, and the power of ten by which the whole is scaled. -/
structure Literal where
  negative : Bool
  whole : List Char
  fraction : List Char
  power : Int
deriving DecidableEq, Repr

/-- The magnitude a literal denotes. -/
def Literal.magnitude (l : Literal) : Decimal :=
  ⟨Nat.ofDigitChars 10 (l.whole ++ l.fraction) 0, l.power - l.fraction.length⟩

/-- The digits at the front of a text, and what follows them. -/
def digitsThen (s : List Char) : List Char × List Char :=
  (s.takeWhile Char.isDigit, s.dropWhile Char.isDigit)

/-- A sign at the front of a text, and what follows it; without one, the sign is plus. -/
def signThen : List Char → Bool × List Char
  | '-' :: rest => (true, rest)
  | '+' :: rest => (false, rest)
  | s => (false, s)

/-- The power of ten that ends a literal: nothing, or the letter `e` in either case, a sign and
one digit or more. -/
def power? : List Char → Option Int
  | [] => some 0
  | c :: rest =>
    if c = 'e' ∨ c = 'E' then
      let (negative, rest) := signThen rest
      if rest.isEmpty ∨ rest.any (!·.isDigit) then none
      else
        let n : Int := Nat.ofDigitChars 10 rest 0
        some (if negative then -n else n)
    else none

/-- Reads an unsigned literal: digits with a point anywhere among them or none, at least one digit
in all, and perhaps a power of ten. -/
def unsigned? (negative : Bool) (s : List Char) : Option Literal :=
  let (whole, rest) := digitsThen s
  let (fraction, rest) :=
    match rest with
    | '.' :: rest => digitsThen rest
    | rest => ([], rest)
  if whole.isEmpty ∧ fraction.isEmpty then none
  else (power? rest).map fun power => ⟨negative, whole, fraction, power⟩

/-- Reads a literal with an optional sign. -/
def Literal.read? (s : List Char) : Option Literal :=
  let (negative, rest) := signThen s
  unsigned? negative rest

end Decimal

namespace Numeral

/-- Reads an integer in plain digits with an optional sign. -/
def int? (s : List Char) : Option Int :=
  let (negative, digits) := Decimal.signThen s
  if digits.isEmpty ∨ digits.any (!·.isDigit) then none
  else
    let n : Int := Nat.ofDigitChars 10 digits 0
    some (if negative then -n else n)

/-- Reads a natural number in plain digits, without a sign. -/
def nat? (digits : List Char) : Option Nat :=
  if digits.isEmpty ∨ digits.any (!·.isDigit) then none
  else some (Nat.ofDigitChars 10 digits 0)

/-- The decimal digits of a natural number, without leading zeros. -/
def ofNat (n : Nat) : List Char :=
  Nat.toDigits 10 n

/-- The decimal digits of an integer behind its sign, if it is negative. -/
def ofInt : Int → List Char
  | .ofNat n => ofNat n
  | .negSucc n => '-' :: ofNat (n + 1)

end Numeral

end MovieCatalog
