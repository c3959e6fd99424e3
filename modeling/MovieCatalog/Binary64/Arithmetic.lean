import MovieCatalog.Binary64.Rounding

/-!
# Products and quotients

The product and the quotient of two values are rounded to the nearest value. Where there is no
number to round, they are an infinity or not a number.
-/

namespace MovieCatalog.Binary64

/-- The value with the other sign. -/
def negated : Binary64 → Binary64
  | .finite negative ordinal => .finite (!negative) ordinal
  | .infinite negative => .infinite (!negative)
  | .nan => .nan

/-- The product of two values. -/
def multiply : Binary64 → Binary64 → Binary64
  | .finite s k, .finite t l => nearest (s != t) (unitsOf k * unitsOf l) (one * one)
  | .finite s k, .infinite t | .infinite s, .finite t k =>
    if k.val = 0 then .nan else .infinite (s != t)
  | .infinite s, .infinite t => .infinite (s != t)
  | .nan, _ | _, .nan => .nan

/-- The quotient of two values. -/
def divide : Binary64 → Binary64 → Binary64
  | .finite s k, .finite t l =>
    if l.val ≠ 0 then nearest (s != t) (unitsOf k) (unitsOf l)
    else if k.val ≠ 0 then .infinite (s != t)
    else .nan
  | .finite s _, .infinite t => signedZero (s != t)
  | .infinite s, .finite t _ => .infinite (s != t)
  | .infinite _, .infinite _ | .nan, _ | _, .nan => .nan

end MovieCatalog.Binary64
