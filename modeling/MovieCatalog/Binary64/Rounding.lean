import MovieCatalog.Binary64.Basic
import MovieCatalog.Decimal.Literal

/-!
# Rounding to the nearest value

A quotient of naturals is rounded to the nearest magnitude, a tie to the one with the even ordinal,
in exact integer arithmetic. What lies beyond the largest magnitude by half a step or more becomes
infinite.
-/

namespace MovieCatalog.Binary64

/-- The integer nearest to `num / den`, a tie to the even one. -/
def roundHalfEven (num den : Nat) : Nat :=
  let q := num / den
  let r := num % den
  if 2 * r < den then q
  else if den < 2 * r then q + 1
  else q + q % 2

/-- The ordinal of the magnitude nearest to `num / den` units, as if there were no largest one. The
quotient is halved until its whole part has at most 53 bits; each halving is `2^52` ordinals. -/
def ordinalNear (num den : Nat) : Nat :=
  let halvings := (num / den).log2 - 52
  halvings * binade + roundHalfEven num (den * twoTo halvings)

/-- The value nearest to `± num / den`. -/
def nearest (negative : Bool) (num den : Nat) : Binary64 :=
  let k := ordinalNear (num * one) den
  if h : k < ordinalBound then .finite negative ⟨k, h⟩ else .infinite negative

/-- The value nearest to a decimal number. Numbers of `10^310` and more are infinite and numbers
below `10^-325` are zero whatever their digits are, so no large power is computed for them. -/
def ofDecimal (negative : Bool) (d : Decimal) : Binary64 :=
  let digits : Int := (Numeral.ofNat d.digits).length
  if d.digits = 0 ∨ d.exponent + digits < -325 then signedZero negative
  else if 310 < d.exponent + digits then .infinite negative
  else nearest negative d.quotient.1 d.quotient.2

/-- The value nearest to an integer. -/
def ofInt (n : Int) : Binary64 :=
  nearest (n < 0) n.natAbs 1

/-- The texts, beside decimal literals, that name a value: the infinities and what is not a number,
in letters of either case. -/
def named? (negative : Bool) (s : List Char) : Option Binary64 :=
  let s := String.ofList (s.map Char.toLower)
  if s = "inf" ∨ s = "infinity" then some (.infinite negative)
  else if s = "nan" then some .nan
  else none

/-- Reads a decimal literal, or the name of a value that is not finite, with an optional sign. -/
def read? (s : List Char) : Option Binary64 :=
  let (negative, rest) := Decimal.signThen s
  match named? negative rest with
  | some x => some x
  | none => (Decimal.unsigned? negative rest).map fun l => ofDecimal negative l.magnitude

end MovieCatalog.Binary64
