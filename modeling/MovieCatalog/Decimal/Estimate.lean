import MovieCatalog.Binary64.Arithmetic

/-!
# Values estimated from decimal literals

A literal is read fast if its digits make up a natural number, as many of them as a word of 64 bits
holds, and this number is multiplied with a power of ten or divided by one. Every step is rounded
(`Binary64.estimate`), so what is read may be another value than the nearest one, and numbers near
to the greatest value may come out as infinite.
-/

namespace MovieCatalog

namespace Decimal

/-- Takes digits into a natural number, behind those in `n`, as long as it fits into a word of 64
bits; the digits that are left over come with it. -/
def takeDigits (n : Nat) : List Char → Nat × List Char
  | [] => (n, [])
  | c :: rest =>
    let m := Nat.ofDigitChars 10 [c] n
    if m < Word.size64 then takeDigits m rest else (n, c :: rest)

/-- The digits of a literal that are kept, with their power of ten. Those that are left over before
the point still count for the power of ten; those that are left over behind it are dropped. -/
def Literal.kept (l : Literal) : Decimal :=
  let (n, surplus) := takeDigits 0 l.whole
  let (m, dropped) := takeDigits n l.fraction
  ⟨m, l.power + surplus.length + dropped.length - l.fraction.length⟩

end Decimal

namespace Binary64

/-- A power of ten, rounded. -/
def powerOfTen (n : Nat) : Binary64 := ofInt (tenTo n)

/-- The greatest power of ten that is not infinite is `10^308`. -/
def greatestPower : Nat := 308

/-- Divides by the greatest power of ten a number of times, or until nothing is left. -/
def shrink : Nat → Binary64 → Binary64
  | 0, x => x
  | n + 1, x => if x = zero then x else shrink n (x.divide (powerOfTen greatestPower))

/-- The value that a decimal number is taken for. Its digits, rounded, are multiplied with its power
of ten or divided by it; a power of ten that is too small is divided off in parts. -/
def estimate (d : Decimal) : Binary64 :=
  let x := ofInt d.digits
  if greatestPower < d.exponent then
    if x = zero then x else .infinite false
  else if 0 ≤ d.exponent then x.multiply (powerOfTen d.exponent.toNat)
  else
    let power := (-d.exponent).toNat
    let parts := (power - 1) / greatestPower
    (shrink parts x).divide (powerOfTen (power - parts * greatestPower))

end Binary64

/-- The value that a literal is taken for. -/
def Decimal.Literal.estimate (l : Literal) : Binary64 :=
  let x := Binary64.estimate l.kept
  if l.negative then x.negated else x

end MovieCatalog
