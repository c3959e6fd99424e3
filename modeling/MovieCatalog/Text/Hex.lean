/-!
# Hexadecimal digits

Numbers are written with the letters `a` to `f` as digits above nine; capitals are read too.
-/

namespace MovieCatalog.Text

/-- The hexadecimal digits of a number, in lower case. -/
def hex (n : Nat) : List Char :=
  Nat.toDigits 16 n

/-- The value of a hexadecimal digit. -/
def hexDigit? (c : Char) : Option Nat :=
  if c.isDigit then some (c.toNat - '0'.toNat)
  else if 'a' ≤ c ∧ c ≤ 'f' then some (c.toNat - 'a'.toNat + 10)
  else if 'A' ≤ c ∧ c ≤ 'F' then some (c.toNat - 'A'.toNat + 10)
  else none

end MovieCatalog.Text
