import MovieCatalog.Binary64.Rounding

/-!
# The fewest digits that read back

Among the decimal numbers that round to a given positive value, those with the fewest digits are
sought, and of these the nearest to the value. On the grid of all numbers with a given count of
digits only the value's two neighbours need to be tried: if any grid number rounds to the value, one
of them does. Seventeen digits are enough for every value; should the search ever fail, the value is
written out exactly.
-/

namespace MovieCatalog.Binary64

/-- Which of two equally near decimal numbers is taken: the one with the even last digit, or the
larger one. -/
inductive Tie where
  | even
  | up
deriving DecidableEq, Repr

/-- The weight of the first digit of `num / den`, both positive: the greatest `k` with
`10^k ≤ num / den`. -/
def leadingWeight (num den : Nat) : Int :=
  if den ≤ num then ((Numeral.ofNat (num / den)).length : Int) - 1
  else
    let n := (Numeral.ofNat (den / num)).length
    if den = num * tenTo (n - 1) then 1 - (n : Int) else -(n : Int)

/-- The two neighbours of `num / den` on the grid of multiples of `10^exponent`, the nearer one
first. -/
def neighbours (tie : Tie) (num den : Nat) (exponent : Int) : Decimal × Decimal :=
  let num := num * tenTo (-exponent).toNat
  let den := den * tenTo exponent.toNat
  let q := num / den
  let below : Decimal := ⟨q, exponent⟩
  let above : Decimal := ⟨q + 1, exponent⟩
  let r := num % den
  let preferBelow : Bool := if 2 * r = den then tie = .even ∧ q % 2 = 0 else 2 * r < den
  if preferBelow then (below, above) else (above, below)

/-- Drops trailing zeros of the digits into the exponent, `fuel` of them at most. -/
def stripZeros : Nat → Decimal → Decimal
  | 0, d => d
  | fuel + 1, d =>
    if d.digits ≠ 0 ∧ d.digits % 10 = 0 then stripZeros fuel ⟨d.digits / 10, d.exponent + 1⟩ else d

/-- The neighbour of a magnitude on the grid of multiples of `10^exponent` that rounds to the
magnitude, if one of the two does; the nearer one is tried first. -/
def candidate? (tie : Tie) (ordinal : Fin ordinalBound) (exponent : Int) : Option Decimal :=
  let readsBack (d : Decimal) : Bool := ofDecimal false d = .finite false ordinal
  let (first, second) := neighbours tie (unitsOf ordinal) one exponent
  if readsBack first then some first else if readsBack second then some second else none

/-- A magnitude as a decimal number, written out exactly. -/
def exactDecimal (ordinal : Fin ordinalBound) : Decimal :=
  ⟨unitsOf ordinal * (tenTo 1074 / one), -1074⟩

/-- The first grid on which a magnitude has such a neighbour has the fewest digits. -/
def search? (tie : Tie) (ordinal : Fin ordinalBound) : Option Decimal :=
  let weight := leadingWeight (unitsOf ordinal) one
  (List.range 17).findSome? fun (i : Nat) => candidate? tie ordinal (weight - i)

/-- A decimal number that rounds to the positive magnitude with a given ordinal, with the fewest
digits and nearest to it. -/
def shortest (tie : Tie) (ordinal : Fin ordinalBound) : Decimal :=
  ((search? tie ordinal).map (stripZeros 17)).getD (stripZeros 1074 (exactDecimal ordinal))

end MovieCatalog.Binary64
