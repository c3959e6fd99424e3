import MovieCatalog.Binary64.Rounding

/-!
# Conversion to integers

A value is converted to a signed integer of 64 bits by dropping its fraction. What is beyond these
integers becomes the nearest of them, so a value is asked for its fraction and its magnitude first
where it has to stand for an integer.
-/

namespace MovieCatalog.Binary64

/-- The value without its sign. -/
def magnitude : Binary64 → Binary64
  | .finite _ ordinal => .finite false ordinal
  | .infinite _ => .infinite false
  | .nan => .nan

/-- The strict order of finite numbers; what is not finite is below nothing and above nothing. -/
def below (x y : Binary64) : Bool :=
  match x.units?, y.units? with
  | some m, some n => m < n
  | _, _ => false

/-- A finite value without a fraction. -/
def isWhole (x : Binary64) : Bool := x.integer?.isSome

/-- What remains of a value without its fraction, or the signed integer of 64 bits that is nearest
to this; zero for what is not a number. -/
def toInt64 : Binary64 → Int64
  | .finite negative ordinal =>
    let n : Int := unitsOf ordinal / one
    .ofInt (max (-(Word.half64 : Int)) (min (if negative then -n else n) (Word.half64 - 1)))
  | .infinite negative => if negative then .minValue else .maxValue
  | .nan => 0

/-- The integer as which a value is taken if it has no fraction and its magnitude is below a
bound. -/
def wholeBelow? (x bound : Binary64) : Option Int64 :=
  if x.isWhole && x.magnitude.below bound then some x.toInt64 else none

end MovieCatalog.Binary64
